import ErModel.Proofs.Parsing
import ErModel.Proofs.Printing

/-!
# Reading what was printed

Each parser reads the tokens of its part of a document back as that part and leaves what follows,
if nothing that follows could belong to it. Names are no keywords unless they are quoted, so the
name of a property is never taken for a modifier of the one before it. Together with the tokens of
what is printed: a document that can be printed is parsed back, with its modifiers in the order in
which they are written.
-/

namespace ErModel.Source

variable {tokens : List Token}

/-! ## Names, types and values -/

theorem reads_identifier (word : String) : Reads (identifier (.ident word :: tokens)) word tokens :=
  ⟨_, rfl⟩

theorem reads_string (text : String) : Reads (string (.str text :: tokens)) text tokens :=
  ⟨_, rfl⟩

theorem reads_mark (token : Token) : Reads (mark token (token :: tokens)) () tokens :=
  ⟨_, if_pos rfl⟩

theorem nameToken_cases (name : String) :
    (nameToken name = .ident name ∧ name ∉ keywords) ∨ nameToken name = .str name := by
  unfold nameToken
  split
  · rename_i h
    rw [Bool.and_eq_true] at h
    exact Or.inl ⟨rfl, of_decide_eq_true h.1⟩
  · exact Or.inr rfl

/-- A name is never taken for a mark. -/
theorem nameToken_ne (name : String) {mark : Token} (hm : (markText? mark).isSome = true) :
    nameToken name ≠ mark := by
  rintro rfl
  rcases nameToken_cases name with ⟨h, -⟩ | h
  · rw [h] at hm
    cases hm
  · rw [h] at hm
    cases hm

theorem reads_name (text : String) : Reads (name (nameToken text :: tokens)) text tokens := by
  rcases nameToken_cases text with ⟨h, -⟩ | h
  · rw [h]
    exact ⟨_, rfl⟩
  · rw [h]
    exact ⟨_, rfl⟩

theorem reads_typeArguments (first : Int) (rest : List Int) :
    Reads (typeArguments (.num first :: ((rest.flatMap fun n => .comma :: [.num n]) ++
      .rParen :: tokens))) (first :: rest) tokens := by
  induction rest generalizing first with
  | nil => exact ⟨_, rfl⟩
  | cons second rest ih =>
      show Reads (typeArguments (.num first :: .comma :: .num second :: _)) _ _
      rw [typeArguments]
      refine (ih second).bind fun _ => ?_
      exact ⟨_, rfl⟩

theorem reads_typeRef (type : TypeRef) (hp : peek tokens ≠ .lParen) :
    Reads (typeRef (type.tokens ++ tokens)) type tokens := by
  obtain ⟨name, args⟩ := type
  cases args with
  | nil =>
      show Reads (typeRef (.ident name :: tokens)) _ _
      unfold typeRef
      refine (reads_identifier name).bind fun _ => ?_
      -- a parenthesis would open arguments
      show Reads (if peek tokens = .lParen then _ else _) _ _
      rw [if_neg hp]
      exact ⟨_, rfl⟩
  | cons first rest =>
      have htokens : TypeRef.tokens ⟨name, first :: rest⟩ ++ tokens =
          .ident name :: .lParen :: .num first ::
            ((rest.flatMap fun n => .comma :: [.num n]) ++ .rParen :: tokens) := by
        simp [TypeRef.tokens, separated]
      rw [htokens]
      unfold typeRef
      refine (reads_identifier name).bind fun _ => ?_
      refine (reads_mark .lParen).bind fun _ => ?_
      refine (reads_typeArguments first rest).bind fun _ => ?_
      exact ⟨_, rfl⟩

theorem reads_defaultValue {literal : Literal} (h : literal.Printable) (hp : peek tokens ≠ .lParen) :
    Reads (defaultValue (literal.tokens ++ tokens)) literal tokens := by
  cases literal with
  | int n => exact ⟨_, rfl⟩
  | decimal x => exact ⟨_, rfl⟩
  | str text => exact ⟨_, rfl⟩
  -- a parenthesis would make a call of a word
  | ident text => exact StaysBare.reads h hp

/-! ## Hints -/

theorem reads_hintPath (words : List String) :
    Reads (hintPath ((words.flatMap fun word => .dot :: [.ident word]) ++ .eq :: tokens))
      (String.join (words.map ("." ++ ·))) (.eq :: tokens) := by
  induction words with
  | nil => exact ⟨_, rfl⟩
  | cons word rest ih =>
      show Reads (hintPath (.dot :: .ident word :: _)) _ _
      rw [hintPath]
      refine ih.bind fun _ => ?_
      rw [List.map_cons, String.join_cons]
      exact ⟨_, rfl⟩

theorem reads_hintValue (value : HintValue) :
    Reads (hintValue (value.token :: tokens)) value tokens := by
  cases value <;> exact ⟨_, rfl⟩

theorem keyWords_ne_nil (key : String) : keyWords key ≠ [] := by
  rw [keyWords, ne_eq, List.map_eq_nil_iff, List.splitOn]
  exact List.splitOnP_ne_nil _ _

/-- The words of a key make the key again. -/
theorem join_keyWords {key first : String} {rest : List String} (h : keyWords key = first :: rest) :
    first ++ String.join (rest.map ("." ++ ·)) = key := by
  have hkey := toList_key key
  rw [h, List.map_cons, intercalate_cons, List.flatMap_map] at hkey
  rw [← String.toList_inj, hkey, String.toList_append, String.toList_join, List.flatMap_map]
  simp only [String.toList_append]
  rfl

theorem reads_hint (hint : Hint) :
    ∃ more, hint.tokens ++ tokens = .at :: more ∧ Reads (Source.hint more) hint tokens := by
  cases hwords : keyWords hint.key with
  | nil => exact absurd hwords (keyWords_ne_nil _)
  | cons first rest =>
      have htokens : hint.tokens ++ tokens = .at :: .ident first ::
          ((rest.flatMap fun word => .dot :: [.ident word]) ++ .eq :: hint.value.token :: tokens) := by
        simp [Hint.tokens, separated, hwords]
      refine ⟨_, htokens, ?_⟩
      unfold Source.hint
      refine (reads_identifier first).bind fun _ => ?_
      refine (reads_hintPath rest).bind fun _ => ?_
      refine (reads_mark .eq).bind fun _ => ?_
      refine (reads_hintValue hint.value).bind fun _ => ?_
      rw [join_keyWords hwords]
      exact ⟨_, rfl⟩

/-! ## Foreign keys -/

theorem reads_setting {word : String} {option : ReferenceOption} {settings : List Token}
    (h : Reads (optionValue word settings) option tokens) :
    Reads (referenceOption (.ident word :: .eq :: settings)) option tokens := by
  unfold referenceOption
  refine (reads_identifier word).bind fun _ => ?_
  refine (reads_mark .eq).bind fun _ => ?_
  exact h.bind fun _ => ⟨_, rfl⟩

theorem reads_referenceOption (option : ReferenceOption) (he : peek tokens ≠ .eq) :
    Reads (referenceOption (option.tokens ++ tokens)) option tokens := by
  cases option with
  | kind word =>
      show Reads (referenceOption (.ident word :: tokens)) _ _
      unfold referenceOption
      refine (reads_identifier word).bind fun _ => ?_
      -- with an equals sign it would be a setting
      show Reads (if peek tokens = .eq then _ else _) _ _
      rw [if_neg he]
      exact ⟨_, rfl⟩
  | onDelete word =>
      refine reads_setting ?_
      exact (reads_identifier word).bind fun _ => ⟨_, rfl⟩
  | onUpdate word =>
      refine reads_setting ?_
      exact (reads_identifier word).bind fun _ => ⟨_, rfl⟩
  | through table =>
      refine reads_setting ?_
      exact (reads_name table).bind fun _ => ⟨_, rfl⟩
  | join column referenced =>
      refine reads_setting ((reads_name column).bind fun _ => ?_)
      refine (reads_mark .arrow).bind fun _ => ?_
      exact (reads_name referenced).bind fun _ => ⟨_, rfl⟩
  | inverse column referenced =>
      refine reads_setting ((reads_name column).bind fun _ => ?_)
      refine (reads_mark .arrow).bind fun _ => ?_
      exact (reads_name referenced).bind fun _ => ⟨_, rfl⟩

/-- An option starts with a word. -/
theorem ReferenceOption.tokens_eq (option : ReferenceOption) :
    ∃ word more, option.tokens = .ident word :: more := by
  cases option <;> exact ⟨_, _, rfl⟩

theorem reads_referenceOptions (first : ReferenceOption) (rest : List ReferenceOption) :
    Reads (referenceOptions (first.tokens ++ ((rest.flatMap fun option => .comma :: option.tokens) ++
      .rBracket :: tokens))) (first :: rest) tokens := by
  induction rest generalizing first with
  | nil =>
      obtain ⟨word, more, htokens⟩ := first.tokens_eq
      have hread : Reads (referenceOption ((.ident word :: more) ++ .rBracket :: tokens)) first
          (.rBracket :: tokens) := by
        rw [← htokens]
        exact reads_referenceOption first (by simp [peek])
      rw [htokens, List.flatMap_nil, List.nil_append, List.cons_append, referenceOptions]
      · refine hread.bind fun _ => ?_
        refine (reads_mark .rBracket).bind fun _ => ?_
        exact ⟨_, rfl⟩
      · simp
  | cons second rest ih =>
      obtain ⟨word, more, htokens⟩ := first.tokens_eq
      have hread : ∀ behind, Reads (referenceOption ((.ident word :: more) ++ .comma :: behind))
          first (.comma :: behind) := by
        intro behind
        rw [← htokens]
        exact reads_referenceOption first (by simp [peek])
      rw [htokens, List.flatMap_cons, List.append_assoc, List.cons_append, List.cons_append,
        referenceOptions]
      · refine (hread _).bind fun _ => ?_
        refine (reads_mark .comma).bind fun _ => ?_
        refine (ih second).bind fun _ => ?_
        exact ⟨_, rfl⟩
      · simp

theorem reads_reference (reference : Reference) (hp : peek tokens ≠ .lBracket) :
    ∃ more, reference.tokens ++ tokens = .ident "fk" :: more ∧
      Reads (Source.reference more) reference tokens := by
  obtain ⟨target, column, options⟩ := reference
  cases options with
  | nil =>
      refine ⟨.arrow :: nameToken target :: .dot :: nameToken column :: tokens, rfl, ?_⟩
      unfold Source.reference
      refine (reads_mark .arrow).bind fun _ => ?_
      refine (reads_name target).bind fun _ => ?_
      refine (reads_mark .dot).bind fun _ => ?_
      refine (reads_name column).bind fun _ => ?_
      show Reads (if peek tokens = .lBracket then _ else _) _ _
      rw [if_neg hp]
      exact ⟨_, rfl⟩
  | cons first rest =>
      have htokens : Reference.tokens ⟨target, column, first :: rest⟩ ++ tokens =
          .ident "fk" :: .arrow :: nameToken target :: .dot :: nameToken column :: .lBracket ::
            (first.tokens ++ ((rest.flatMap fun option => .comma :: option.tokens) ++
              .rBracket :: tokens)) := by
        simp [Reference.tokens, separated]
      refine ⟨_, htokens, ?_⟩
      unfold Source.reference
      refine (reads_mark .arrow).bind fun _ => ?_
      refine (reads_name target).bind fun _ => ?_
      refine (reads_mark .dot).bind fun _ => ?_
      refine (reads_name column).bind fun _ => ?_
      refine (reads_mark .lBracket).bind fun _ => ?_
      refine (reads_referenceOptions first rest).bind fun _ => ?_
      exact ⟨_, rfl⟩

/-! ## Modifiers -/

/-- Nothing that follows belongs to a modifier. -/
structure Follows (tokens : List Token) : Prop where
  noCall : peek tokens ≠ .lParen
  noOptions : peek tokens ≠ .lBracket

/-- What follows does not start with a modifier. -/
def NoModifier (tokens : List Token) : Prop :=
  ∀ word rest, tokens = .ident word :: rest → modifierAfter? word rest = none

theorem modifierAfter?_of_not_mem {word : String} (h : word ∉ keywords) (rest : List Token) :
    modifierAfter? word rest = none := by
  unfold modifierAfter?
  split <;> simp [keywords] at h ⊢

theorem reads_modifier {modifier : Modifier} (hp : modifier.Printable) (hf : Follows tokens) :
    ∃ word more parse, modifier.tokens ++ tokens = .ident word :: more ∧
      modifierAfter? word more = some parse ∧ Reads parse modifier tokens := by
  cases modifier with
  | pk | unique | index | null | increment => exact ⟨_, _, _, rfl, rfl, _, rfl⟩
  | notNull => exact ⟨_, _, _, rfl, rfl, _, rfl⟩
  | default value =>
      refine ⟨_, _, _, rfl, rfl, ?_⟩
      exact (reads_defaultValue hp hf.noCall).bind fun _ => ⟨_, rfl⟩
  | map text | collate text | doc text =>
      refine ⟨_, _, _, rfl, rfl, ?_⟩
      exact (reads_string text).bind fun _ => ⟨_, rfl⟩
  | fk reference =>
      obtain ⟨more, htokens, hread⟩ := reads_reference reference hf.noOptions
      refine ⟨_, more, _, htokens, rfl, ?_⟩
      exact hread.bind fun _ => ⟨_, rfl⟩

theorem follows_modifiers (list : List Modifier) (hf : Follows tokens) :
    Follows (list.flatMap Modifier.tokens ++ tokens) := by
  cases list with
  | nil => exact hf
  | cons modifier rest =>
      rw [List.flatMap_cons, List.append_assoc]
      cases modifier <;> exact ⟨by simp [peek, Modifier.tokens, Reference.tokens],
        by simp [peek, Modifier.tokens, Reference.tokens]⟩

theorem reads_modifiers {list : List Modifier} (hp : ∀ m ∈ list, m.Printable) (hf : Follows tokens)
    (hn : NoModifier tokens) :
    Reads (modifiers (list.flatMap Modifier.tokens ++ tokens)) list tokens := by
  induction list with
  | nil =>
      show Reads (modifiers tokens) _ _
      unfold modifiers
      split
      · rename_i word rest
        rw [hn word rest rfl]
        exact ⟨_, rfl⟩
      · exact ⟨_, rfl⟩
  | cons modifier rest ih =>
      obtain ⟨hmodifier, hrest⟩ := List.forall_mem_cons.mp hp
      obtain ⟨word, more, parse, htokens, hparse, hread⟩ :=
        reads_modifier hmodifier (follows_modifiers rest hf)
      rw [List.flatMap_cons, List.append_assoc, htokens, modifiers, hparse]
      refine hread.bind fun _ => ?_
      refine (ih hrest).bind fun _ => ?_
      exact ⟨_, rfl⟩

/-! ## Properties and entities -/

theorem reads_property {property : Property} (hp : property.Printable) (hf : Follows tokens)
    (hn : NoModifier tokens) :
    Reads (Source.property (property.tokens ++ tokens)) property.canonical tokens := by
  have hordered : ∀ m ∈ ordered property.modifiers, m.Printable := fun m hm =>
    hp.modifiers m (List.mem_mergeSort.mp hm)
  have hmodifiers := reads_modifiers hordered hf hn
  have hfollows := follows_modifiers (ordered property.modifiers) hf
  rw [Property.tokens, List.append_assoc, List.cons_append, Source.property]
  refine (reads_name property.name).bind fun _ => ?_
  refine (reads_typeRef property.type hfollows.noCall).bind fun _ => ?_
  refine hmodifiers.bind fun _ => ?_
  exact ⟨_, rfl⟩

/-- What follows a property: another one, or the end of its entity. -/
theorem follows_properties (list : List Property) :
    Follows (list.flatMap Property.tokens ++ .rBrace :: tokens) ∧
      NoModifier (list.flatMap Property.tokens ++ .rBrace :: tokens) := by
  cases list with
  | nil => exact ⟨⟨by simp [peek], by simp [peek]⟩, by simp [NoModifier]⟩
  | cons property rest =>
      rw [List.flatMap_cons, Property.tokens]
      rcases nameToken_cases property.name with ⟨h, hword⟩ | h
      · -- a name that is a keyword would be quoted
        refine ⟨⟨by simp [peek, h], by simp [peek, h]⟩, ?_⟩
        intro word more he
        rw [h] at he
        cases he
        exact modifierAfter?_of_not_mem hword _
      · refine ⟨⟨by simp [peek, h], by simp [peek, h]⟩, ?_⟩
        intro word more he
        rw [h] at he
        cases he

theorem reads_properties (entity : String) {seen : List String} {list : List Property}
    (hp : ∀ p ∈ list, p.Printable) (hn : NewTo (·.name) seen list) :
    Reads (body entity seen (list.flatMap Property.tokens ++ .rBrace :: tokens))
      ([], list.map (·.canonical)) tokens := by
  induction list generalizing seen with
  | nil =>
      show Reads (body entity seen (.rBrace :: tokens)) _ _
      rw [body]
      exact ⟨_, rfl⟩
  | cons property rest ih =>
      obtain ⟨hproperty, hproperties⟩ := List.forall_mem_cons.mp hp
      obtain ⟨hnew, hrest⟩ := newTo_cons.mp hn
      obtain ⟨hf, hm⟩ : Follows (rest.flatMap Property.tokens ++ .rBrace :: tokens) ∧
          NoModifier (rest.flatMap Property.tokens ++ .rBrace :: tokens) := follows_properties rest
      have hread := reads_property hproperty hf hm
      rw [List.flatMap_cons, List.append_assoc, body]
      · refine hread.bind fun _ => ?_
        -- the order of its modifiers does not change its name
        have hnew : property.canonical.name ∉ seen := hnew
        dsimp only
        rw [if_neg hnew]
        refine (ih hproperties hrest).bind fun _ => ?_
        exact ⟨_, rfl⟩
      -- a name is neither the end of the entity nor the start of a hint
      · intro more he
        exact nameToken_ne property.name rfl (List.cons.inj he).1
      · intro more he
        exact nameToken_ne property.name rfl (List.cons.inj he).1

theorem reads_body (entity : String) (hints : List Hint) {list : List Property}
    (hp : ∀ p ∈ list, p.Printable) (hn : NewTo (·.name) [] list) :
    Reads (body entity [] (hints.flatMap Hint.tokens ++
        (list.flatMap Property.tokens ++ .rBrace :: tokens)))
      (hints, list.map (·.canonical)) tokens := by
  induction hints with
  | nil => exact reads_properties entity hp hn
  | cons hint rest ih =>
      rw [List.flatMap_cons, List.append_assoc]
      obtain ⟨more, htokens, hread⟩ := reads_hint hint
      rw [htokens, body]
      refine hread.bind fun _ => ?_
      refine ih.bind fun _ => ?_
      exact ⟨_, rfl⟩

/-- The entity with the modifiers of its properties in the order in which they are written. -/
def Entity.canonical (entity : Entity) : Entity :=
  { entity with properties := entity.properties.map (·.canonical) }

theorem reads_entity {e : Entity} (hp : e.Printable) (hn : (e.properties.map (·.name)).Nodup) :
    ∃ more, e.tokens ++ tokens = .ident "entity" :: more ∧
      Reads (entity more) e.canonical tokens := by
  have htokens : e.tokens ++ tokens = .ident "entity" :: nameToken e.name :: .lBrace ::
      (e.hints.flatMap Hint.tokens ++ (e.properties.flatMap Property.tokens ++
        .rBrace :: tokens)) := by
    simp [Entity.tokens]
  refine ⟨_, htokens, ?_⟩
  unfold entity
  refine (reads_name e.name).bind fun _ => ?_
  refine (reads_mark .lBrace).bind fun _ => ?_
  refine (reads_body e.name e.hints hp.properties (newTo_nil.mpr hn)).bind fun _ => ?_
  exact ⟨_, rfl⟩

theorem reads_entities {seen : List String} {list : List Entity} (hp : ∀ e ∈ list, e.Printable)
    (hn : NewTo (·.name) seen list) (hd : ∀ e ∈ list, (e.properties.map (·.name)).Nodup) :
    entities seen (list.flatMap Entity.tokens ++ [.eof]) = .ok (list.map (·.canonical)) := by
  induction list generalizing seen with
  | nil =>
      show entities seen [.eof] = _
      rw [entities]
      rfl
  | cons e rest ih =>
      obtain ⟨hnew, hrest⟩ := newTo_cons.mp hn
      obtain ⟨hentity, hentities⟩ := List.forall_mem_cons.mp hp
      obtain ⟨hapart, hothers⟩ := List.forall_mem_cons.mp hd
      obtain ⟨more, htokens, shorter, hread⟩ := reads_entity hentity hapart
      have hnew : e.canonical.name ∉ seen := hnew
      rw [List.flatMap_cons, List.append_assoc, htokens, entities, hread]
      show (if e.canonical.name ∈ seen then _ else _) = _
      rw [if_neg hnew]
      show (entities (e.name :: seen) _ >>= _) = _
      rw [ih hentities hrest hothers]
      rfl

/-- **A document that can be printed is parsed back**, with its modifiers in the order in which they
are written. -/
theorem parse_print {document : Document} (hp : ∀ e ∈ document.entities, e.Printable)
    (hd : document.Distinct) : parse document.print = .ok document.canonical := by
  have hscan : tokens document.print = .ok (document.entities.flatMap Entity.tokens ++ [.eof]) :=
    Document.scans hp
  have hread := reads_entities hp (newTo_nil.mpr hd.entities) hd.properties
  rw [parse, hscan]
  show Document.mk <$> entities [] _ = _
  rw [hread]
  rfl

end ErModel.Source
