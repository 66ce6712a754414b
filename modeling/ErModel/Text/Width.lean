import ErModel.Text.WidthClass

/-!
# Display width

How many columns of a terminal a text fills. Each character has a width of its own, but a width
also depends on what follows: a variation selector turns a sign into an emoji, a skin tone melts
into the hand before it, two regional indicators make one flag, and some scripts write two letters
as one shape. So the text is measured from its end, and every step knows what stands to the right.
-/

namespace ErModel.Text

/-- What stands directly to the right of the character being measured, as far as it can matter. -/
inductive Trail where
  | plain
  | lineFeed
  | emoji
  | skinTone
  | region
  | regions
  /-- A zero-width joiner with an emoji behind it, and what may stand between. -/
  | joinedEmoji
  | joinedKeycap
  | joinedRegion
  | joinedRegionPair
  | joinedRegionOdd
  /-- The end of a flag spelled with tags, and the tag letters in front of it. -/
  | joinedTagLetters (count : Nat)
  /-- As before, with tag digits in front of the letters. -/
  | joinedTagDigits (count : Nat)
  | alef
  | lamed
  | joinedLamed
  | yaLetter
  | joinedYaLetter
  | vowelWithYa
  | tifinagh
  | joinedTifinagh
  | tifinaghJoiner
  | lisuTone
  | orkhonI
  | joinedOrkhonI
  | khmerConsonant
  | kiratE
  | kiratAi
  deriving DecidableEq

/-- Letters whose shape melts into what stands before them, across joiners and selectors. -/
def Trail.ligates : Trail → Bool
  | .alef | .lamed | .joinedLamed | .yaLetter | .joinedYaLetter | .vowelWithYa | .tifinagh
  | .joinedTifinagh | .tifinaghJoiner | .lisuTone | .orkhonI | .joinedOrkhonI
  | .khmerConsonant => true
  | _ => false

/-- Whether a joiner further right already asks for an emoji. -/
def Trail.awaitsEmoji : Trail → Bool
  | .joinedEmoji | .joinedKeycap => true
  | _ => false

/-- What a letter that ligates becomes once a zero-width joiner stands before it. -/
def Trail.join : Trail → Trail
  | .lamed => .joinedLamed
  | .yaLetter => .joinedYaLetter
  | .tifinagh => .joinedTifinagh
  | .orkhonI => .joinedOrkhonI
  | .alef => .plain
  | other => other

/-- All that measuring a character needs to know of the rest of the text: what stands to the right,
and the styles that variation selectors ask of the character before them. -/
structure Ahead where
  trail : Trail
  asEmoji : Bool := false
  asText : Bool := false
  /-- Quotation marks as wide as an ideograph. -/
  asWide : Bool := false
  deriving DecidableEq

/-- Nothing that matters. -/
def Ahead.none : Ahead := { trail := .plain }

/-- A trail without a selector. -/
def Ahead.of (trail : Trail) : Ahead := { trail }

/-- What an emoji selector leaves to a character that it cannot follow. -/
def Ahead.withoutEmoji (ahead : Ahead) : Ahead :=
  if !ahead.asEmoji then ahead
  else if ahead.trail.ligates then { ahead with asEmoji := false }
  else .none

/-- What the other selectors leave to a character that they cannot follow: nothing, unless a letter
that ligates stands behind them. -/
def Ahead.unstyled (ahead : Ahead) : Trail :=
  if !(ahead.asText || ahead.asWide) || ahead.trail.ligates then ahead.trail else .plain

/-- A selector put in front, if `c` is one. A letter that ligates does so across any number of
selectors, and every style among them is kept. Elsewhere only the selector itself counts, except
that an emoji selector still lets the joiner behind it reach the emoji in front. -/
def Ahead.select? (ahead : Ahead) (c : Char) : Option Ahead :=
  if c = '\uFE0F' then
    if ahead.trail.ligates || ahead.trail.awaitsEmoji then some { ahead with asEmoji := true }
    else some { trail := .plain, asEmoji := true }
  else if c = '\uFE0E' then
    if ahead.trail.ligates then some { ahead with asText := true }
    else some { trail := .plain, asText := true }
  else if c = '\uFE01' then
    if ahead.trail.ligates then some { ahead with asWide := true }
    else some { trail := .plain, asWide := true }
  else Option.none

private def within (c first last : Char) : Bool := first ≤ c && c ≤ last

/-- Arabic letters of the joining group Alef. -/
def isAlef (c : Char) : Bool :=
  Spans.holds [(0x622, 0x623), (0x625, 0x625), (0x627, 0x627), (0x671, 0x673), (0x675, 0x675),
    (0x773, 0x774), (0x870, 0x882)] c

/-- Arabic letters of the joining group Lam. -/
def isLam (c : Char) : Bool :=
  Spans.holds [(0x644, 0x644), (0x6B5, 0x6B8), (0x76A, 0x76A), (0x8A6, 0x8A6), (0x8C7, 0x8C7)] c

/-- Khmer letters that take the form below the line after a coeng sign. -/
def isKhmerConsonant (c : Char) : Bool :=
  Spans.holds [(0x1780, 0x1782), (0x1784, 0x1787), (0x1789, 0x178C), (0x178E, 0x1793),
    (0x1795, 0x1798), (0x179B, 0x179D), (0x17A0, 0x17A0), (0x17A2, 0x17A2), (0x17A7, 0x17A7),
    (0x17AB, 0x17AC), (0x17AF, 0x17AF)] c

/-- Tifinagh consonants. -/
def isTifinagh (c : Char) : Bool := within c '\u2D31' '\u2D65' || c = '\u2D6F'

/-- Regional indicators, two of which make a flag. -/
def isRegion (c : Char) : Bool := Spans.holds [(0x1F1E6, 0x1F1FF)] c

/-- Skin tones. -/
def isSkinTone (c : Char) : Bool := Spans.holds [(0x1F3FB, 0x1F3FF)] c

/-- Tag letters, which spell the region of a flag. -/
def isTagLetter (c : Char) : Bool := Spans.holds [(0xE0061, 0xE007A)] c

/-- Tag digits. -/
def isTagDigit (c : Char) : Bool := Spans.holds [(0xE0030, 0xE0039)] c

/-- The black flag, on which a region is spelled with tags. -/
def isFlag (c : Char) : Bool := c.toNat = 0x1F3F4

/-- Quotation marks that a selector makes wide. -/
def isQuotationMark (c : Char) : Bool := Spans.holds [(0x2018, 0x2019), (0x201C, 0x201D)] c

/-- Invisible characters across which letters still ligate. -/
def isLigatureTransparent (c : Char) : Bool :=
  Spans.holds [(0x34F, 0x34F), (0x17B4, 0x17B5), (0x180B, 0x180D), (0x180F, 0x180F),
    (0x200D, 0x200D), (0xFE00, 0xFE0F), (0xE0100, 0xE01EF)] c

/-- The width of a character on its own, and what it means to the character before it. -/
def ownWidth (c : Char) : Int × Ahead :=
  if c = '\u05DC' then (1, .of .lamed)
  else if isAlef c then (1, .of .alef)
  else if isKhmerConsonant c then (1, .of .khmerConsonant)
  else if c = '\u17D8' then (3, .none)
  else if c = '\u1A10' then (1, .of .yaLetter)
  else if isTifinagh c then (1, .of .tifinagh)
  else if within c '\uA4FC' '\uA4FD' then (1, .of .lisuTone)
  else if c.toNat = 0x10C03 then (1, .of .orkhonI)
  else if c.toNat = 0x16D67 then (1, .of .kiratE)
  else if c.toNat = 0x16D68 then (1, .of .kiratAi)
  else if isRegion c then (1, .of .region)
  else if isSkinTone c then (2, .of .skinTone)
  else if emojiSpans.holds c then (2, .of .emoji)
  else if zeroWidthSpans.holds c then (0, .none)
  else if wideSpans.holds c then (2, .none)
  else (1, .none)

/-- Characters that melt into what stands to their right, with the columns they then add. -/
def meltedWidth (c : Char) (trail : Trail) : Option (Int × Ahead) :=
  match trail with
  | .alef =>
    if isLam c then some (0, .none)
    else if joiningMarkSpans.holds c then some (0, .of .alef)
    else none
  | .joinedLamed => if c = '\u05D0' then some (0, .none) else none
  | .khmerConsonant => if c = '\u17D2' then some (-1, .none) else none
  | .joinedYaLetter => if c = '\u1A17' then some (0, .of .vowelWithYa) else none
  | .vowelWithYa => if c = '\u1A15' then some (0, .none) else none
  | .tifinagh => if c = '\u2D7F' then some (1, .of .tifinaghJoiner) else none
  | .joinedTifinagh =>
    if c = '\u2D7F' then some (1, .of .tifinaghJoiner)
    else if isTifinagh c then some (0, .none)
    else none
  | .tifinaghJoiner => if isTifinagh c then some (-1, .none) else none
  | .lisuTone => if within c '\uA4F8' '\uA4FB' then some (0, .none) else none
  | .joinedOrkhonI => if c.toNat = 0x10C32 then some (0, .none) else none
  | .kiratE =>
    if c.toNat = 0x16D63 || c.toNat = 0x16D69 then some (0, .none)
    else if c.toNat = 0x16D67 then some (0, .of .kiratAi)
    else if c.toNat = 0x16D68 then some (1, .of .kiratE)
    else none
  | .kiratAi => if c.toNat = 0x16D63 then some (0, .none) else none
  | .skinTone =>
    if skinToneBaseSpans.holds c then some (0, .of .emoji)
    else if c = '\u200D' then some (0, .of .joinedEmoji)
    else none
  | .region | .regions =>
    if isRegion c then some (1, .of .regions)
    else if c = '\u200D' && trail == .regions then some (0, .of .joinedEmoji)
    else none
  | .emoji => if c = '\u200D' then some (0, .of .joinedEmoji) else none
  | .joinedEmoji =>
    if c = '\u20E3' then some (0, .of .joinedKeycap)
    else if isRegion c then some (1, .of .joinedRegion)
    else if isSkinTone c then some (0, .of .skinTone)
    else if c.toNat = 0xE007F then some (0, .of (.joinedTagLetters 0))
    else if (ownWidth c).2 = .of .emoji then some (0, .of .emoji)
    else none
  | .joinedRegion | .joinedRegionOdd =>
    if isRegion c then some (-1, .of .joinedRegionPair)
    else if c = '\u200D' && trail == .joinedRegionOdd then some (0, .of .joinedEmoji)
    else none
  | .joinedRegionPair =>
    if isRegion c then some (3, .of .joinedRegionOdd)
    else if c = '\u200D' then some (0, .of .joinedEmoji)
    else none
  | .joinedTagLetters count =>
    if isTagLetter c && count < 6 then some (0, .of (.joinedTagLetters (count + 1)))
    else if isTagDigit c && count < 5 then some (0, .of (.joinedTagDigits 1))
    else if isFlag c && 3 ≤ count then some (0, .of .emoji)
    else none
  | .joinedTagDigits count =>
    if isTagDigit c && count < 3 then some (0, .of (.joinedTagDigits (count + 1)))
    else if isFlag c && count = 3 then some (0, .of .emoji)
    else none
  | _ => none

/-- The columns that a character adds to what stands to its right, and what it means to the
character before it. -/
def widthBefore (c : Char) (ahead : Ahead) : Int × Ahead :=
  if ahead.asEmoji && emojiStyleSpans.holds c then
    (if ahead.trail.awaitsEmoji then 0 else 2, .of .emoji)
  else
    let ahead := ahead.withoutEmoji
    if c ≤ '\u00A0' then
      if c = '\n' then (1, .of .lineFeed)
      else if c = '\r' && ahead = .of .lineFeed then (0, .none)
      else (1, .none)
    else
      match ahead.select? c with
      | some styled => (0, styled)
      | none =>
        if ahead.asText && textStyleSpans.holds c then (1, .none)
        else if ahead.asWide && isQuotationMark c then (2, .none)
        else
          let trail := ahead.unstyled
          if trail.ligates && c = '\u200D' then (0, .of trail.join)
          else if trail.ligates && isLigatureTransparent c then (0, .of trail)
          else (meltedWidth c trail).getD (ownWidth c)

/-- The columns that a text fills. -/
def width (text : String) : Nat :=
  (text.toList.foldr (fun c (columns, ahead) =>
    let (more, ahead) := widthBefore c ahead
    (columns + more, ahead)) ((0 : Int), Ahead.none)).1.toNat

end ErModel.Text
