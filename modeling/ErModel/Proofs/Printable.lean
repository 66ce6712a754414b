import ErModel.Proofs.Reparsing

/-!
# Parsed texts can be printed

The lexer gives words that are words and integers that fit 64 bits, and every parser puts together
what it reads from such tokens. So whatever is parsed can be printed again, with two exceptions: a
default value may be a call, which is read as one text and has more than one token, and it may be
a decimal too large to be finite. Where there is neither, printing and parsing are inverse, up to
the order in which modifiers are written.
-/

namespace ErModel.Source

/-! ## Parsers -/

/-- If the parser gives a value, the value has the property `P`, and what follows is sound. -/
def Guarantees {α : Type} {bound : Nat} (parsed : Parse α bound) (P : α → Prop) : Prop :=
  ∀ r, parsed = .ok r → P r.value ∧ ∀ t ∈ r.rest, t.Sound

namespace Guarantees

variable {α β : Type} {m n : Nat} {parsed : Parse α m} {P : α → Prop} {Q : β → Prop}

/-- A parser gives something, and the rest of the parsing goes on behind it. -/
theorem bind {next : Parsed α m → Parse β n} (h : Guarantees parsed P)
    (hn : ∀ value rest shorter, P value → (∀ t ∈ rest, t.Sound) →
      Guarantees (next ⟨value, rest, shorter⟩) Q) : Guarantees (parsed >>= next) Q := by
  intro r hr
  obtain ⟨⟨value, rest, shorter⟩, hfirst, hr⟩ := bind_eq_ok.mp hr
  obtain ⟨hvalue, hrest⟩ := h _ hfirst
  exact hn value rest shorter hvalue hrest r hr

theorem ok {value : β} {rest : List Token} {shorter : rest.length < n} (hvalue : Q value)
    (hrest : ∀ t ∈ rest, t.Sound) : Guarantees (.ok ⟨value, rest, shorter⟩ : Parse β n) Q := by
  intro r hr
  cases hr
  exact ⟨hvalue, hrest⟩

theorem error {e : ParseError} : Guarantees (.error e : Parse β n) Q := by
  intro r hr
  cases hr

end Guarantees

section

variable {tokens : List Token} (h : ∀ t ∈ tokens, t.Sound)

include h

theorem identifier_word : Guarantees (identifier tokens) (isWord · = true) := by
  unfold identifier
  split
  · rw [List.forall_mem_cons] at h
    exact .ok h.1 h.2
  · exact .error

theorem name_any : Guarantees (name tokens) (fun _ => True) := by
  unfold name
  split
  · rw [List.forall_mem_cons] at h
    exact .ok trivial h.2
  · rw [List.forall_mem_cons] at h
    exact .ok trivial h.2
  · exact .error

theorem string_any : Guarantees (string tokens) (fun _ => True) := by
  unfold string
  split
  · rw [List.forall_mem_cons] at h
    exact .ok trivial h.2
  · exact .error

theorem mark_any (wanted : Token) : Guarantees (mark wanted tokens) (fun _ => True) := by
  unfold mark
  split
  · exact .error
  · split
    · rw [List.forall_mem_cons] at h
      exact .ok trivial h.2
    · exact .error

/-! ### Types and values -/

theorem typeArguments_fit :
    Guarantees (typeArguments tokens) (fun args => ∀ n ∈ args, Fits n) := by
  fun_induction typeArguments tokens with
  | case1 n rest ih =>
      simp only [List.forall_mem_cons] at h
      refine (ih h.2.2).bind fun args rest' _ hargs hrest => .ok ?_ hrest
      rw [List.forall_mem_cons]
      exact ⟨h.1, hargs⟩
  | case2 n rest =>
      simp only [List.forall_mem_cons] at h
      refine .ok ?_ h.2.2
      rw [List.forall_mem_singleton]
      exact h.1
  | case3 | case4 => exact .error

theorem typeRef_printable : Guarantees (typeRef tokens) (·.Printable) := by
  unfold typeRef
  refine (identifier_word h).bind fun word rest₁ _ hword h₁ => ?_
  dsimp only
  split
  · refine (mark_any h₁ _).bind fun _ rest₂ _ _ h₂ => ?_
    refine (typeArguments_fit h₂).bind fun args rest₃ _ hargs h₃ => ?_
    exact .ok ⟨hword, hargs⟩ h₃
  · exact .ok ⟨hword, by simp⟩ h₁

theorem callArguments_any : Guarantees (callArguments tokens) (fun _ => True) := by
  fun_induction callArguments tokens with
  | case1 | case2 => exact .error
  | case3 rest =>
      rw [List.forall_mem_cons] at h
      exact .ok trivial h.2
  | case4 token rest _ _ ih =>
      rw [List.forall_mem_cons] at h
      exact (ih h.2).bind fun _ _ _ _ hrest => .ok trivial hrest

end

/-- The literal is a call: a word, and something in parentheses. -/
def Literal.IsCall (literal : Literal) : Prop :=
  ∃ word args, literal = .ident (word ++ "(" ++ args ++ ")")

/-- No word is a call. -/
theorem not_isCall_of_isWord {text : String} (h : isWord text = true) :
    ¬ (Literal.ident text).IsCall := by
  rintro ⟨word, args, heq⟩
  obtain rfl := Literal.ident.inj heq
  obtain ⟨first, more, htext, hfirst, hmore⟩ := isWord_iff.mp h
  have hmem : '(' ∈ first :: more := by
    rw [← htext]
    simp
  rcases List.mem_cons.mp hmem with rfl | hmem
  · exact absurd hfirst (by decide +kernel)
  · exact absurd (hmore _ hmem) (by decide +kernel)

/-- The literal is no call, and if it is a decimal then a finite one. -/
structure Literal.Plain (literal : Literal) : Prop where
  noCall : ¬ literal.IsCall
  finite : ∀ x, literal = .decimal x → x.isFinite = true

/-- A default value is plain. -/
def Modifier.Plain (modifier : Modifier) : Prop :=
  ∀ value, modifier = .default value → value.Plain

section

variable {tokens : List Token} (h : ∀ t ∈ tokens, t.Sound)

include h

theorem defaultValue_printable :
    Guarantees (defaultValue tokens) (fun value => value.Plain → value.Printable) := by
  unfold defaultValue
  split
  · simp only [List.forall_mem_cons] at h
    refine (callArguments_any h.2.2).bind fun args rest _ _ hrest => .ok ?_ hrest
    exact fun hp => absurd ⟨_, _, rfl⟩ hp.noCall
  · rw [List.forall_mem_cons] at h
    exact .ok (fun _ => staysBare_word h.1) h.2
  · rw [List.forall_mem_cons] at h
    exact .ok (fun _ => trivial) h.2
  · rw [List.forall_mem_cons] at h
    exact .ok (fun _ => h.1) h.2
  · rw [List.forall_mem_cons] at h
    exact .ok (fun hp => hp.finite _ rfl) h.2
  · exact .error

/-! ### Hints -/

theorem hintPath_words : Guarantees (hintPath tokens) (fun path =>
    ∃ words : List String, (∀ word ∈ words, isWord word = true) ∧
      path = String.join (words.map ("." ++ ·))) := by
  fun_induction hintPath tokens with
  | case1 word rest ih =>
      simp only [List.forall_mem_cons] at h
      refine (ih h.2.2).bind fun path rest' _ hpath hrest => .ok ?_ hrest
      obtain ⟨words, hwords, rfl⟩ := hpath
      refine ⟨word :: words, ?_, ?_⟩
      · rw [List.forall_mem_cons]
        exact ⟨h.2.1, hwords⟩
      · rw [List.map_cons, String.join_cons]
  | case2 => exact .error
  | case3 => exact .ok ⟨[], by simp, rfl⟩ h

theorem hintValue_printable : Guarantees (hintValue tokens) (·.Printable) := by
  unfold hintValue
  split
  · rw [List.forall_mem_cons] at h
    exact .ok h.1 h.2
  · rw [List.forall_mem_cons] at h
    exact .ok trivial h.2
  · rw [List.forall_mem_cons] at h
    exact .ok h.1 h.2
  · exact .error

omit h in
/-- No word has a dot in it, so the words of a key are those that it was made of. -/
theorem keyWords_join {first : String} {rest : List String} (hfirst : isWord first = true)
    (hrest : ∀ word ∈ rest, isWord word = true) :
    keyWords (first ++ String.join (rest.map ("." ++ ·))) = first :: rest := by
  have hdot : ∀ word, isWord word = true → '.' ∉ word.toList := by
    intro word hword hmem
    obtain ⟨c, more, htext, hstart, hmore⟩ := isWord_iff.mp hword
    rw [htext] at hmem
    rcases List.mem_cons.mp hmem with rfl | hmem
    · exact absurd hstart (by decide +kernel)
    · exact absurd (hmore _ hmem) (by decide +kernel)
  have htext : (first ++ String.join (rest.map ("." ++ ·))).toList =
      ['.'].intercalate ((first :: rest).map String.toList) := by
    rw [List.map_cons, intercalate_cons, String.toList_append, String.toList_join,
      List.flatMap_map, List.flatMap_map]
    simp only [String.toList_append]
    rfl
  rw [keyWords, htext, List.splitOn_intercalate]
  · rw [List.map_map]
    simp [Function.comp_def]
  · intro text hmem
    obtain ⟨word, hword, rfl⟩ := List.mem_map.mp hmem
    rcases List.mem_cons.mp hword with rfl | hword
    · exact hdot _ hfirst
    · exact hdot _ (hrest _ hword)
  · simp

theorem hint_printable : Guarantees (hint tokens) (·.Printable) := by
  unfold hint
  refine (identifier_word h).bind fun word rest₁ _ hword h₁ => ?_
  refine (hintPath_words h₁).bind fun path rest₂ _ hpath h₂ => ?_
  refine (mark_any h₂ _).bind fun _ rest₃ _ _ h₃ => ?_
  refine (hintValue_printable h₃).bind fun value rest₄ _ hvalue h₄ => ?_
  obtain ⟨words, hwords, rfl⟩ := hpath
  refine .ok ⟨?_, hvalue⟩ h₄
  dsimp only
  rw [keyWords_join hword hwords, List.forall_mem_cons]
  exact ⟨hword, hwords⟩

/-! ### Foreign keys -/

theorem optionValue_printable (word : String) :
    Guarantees (optionValue word tokens) (·.Printable) := by
  unfold optionValue
  split
  · exact (identifier_word h).bind fun _ _ _ hword hrest => .ok hword hrest
  · exact (identifier_word h).bind fun _ _ _ hword hrest => .ok hword hrest
  · exact (name_any h).bind fun _ _ _ _ hrest => .ok trivial hrest
  · refine (name_any h).bind fun _ rest₁ _ _ h₁ => ?_
    refine (mark_any h₁ _).bind fun _ rest₂ _ _ h₂ => ?_
    exact (name_any h₂).bind fun _ _ _ _ hrest => .ok trivial hrest
  · refine (name_any h).bind fun _ rest₁ _ _ h₁ => ?_
    refine (mark_any h₁ _).bind fun _ rest₂ _ _ h₂ => ?_
    exact (name_any h₂).bind fun _ _ _ _ hrest => .ok trivial hrest
  · exact .error

theorem referenceOption_printable : Guarantees (referenceOption tokens) (·.Printable) := by
  unfold referenceOption
  refine (identifier_word h).bind fun word rest₁ _ hword h₁ => ?_
  dsimp only
  split
  · refine (mark_any h₁ _).bind fun _ rest₂ _ _ h₂ => ?_
    exact (optionValue_printable h₂ word).bind fun _ _ _ hoption hrest => .ok hoption hrest
  · exact .ok hword h₁

theorem referenceOptions_printable :
    Guarantees (referenceOptions tokens) (fun options => ∀ option ∈ options, option.Printable) := by
  fun_induction referenceOptions tokens with
  | case1 rest =>
      rw [List.forall_mem_cons] at h
      exact .ok (by simp) h.2
  | case2 tokens _ ih =>
      refine (referenceOption_printable h).bind fun option rest₁ h₁ hoption hs₁ => ?_
      dsimp only
      split
      · refine (mark_any hs₁ _).bind fun _ rest₂ h₂ _ hs₂ => ?_
        refine (ih rest₁ h₁ rest₂ h₂ hs₂).bind fun options rest₃ _ hoptions hs₃ => .ok ?_ hs₃
        rw [List.forall_mem_cons]
        exact ⟨hoption, hoptions⟩
      · refine (mark_any hs₁ _).bind fun _ rest₂ _ _ hs₂ => .ok ?_ hs₂
        rw [List.forall_mem_singleton]
        exact hoption

theorem reference_printable : Guarantees (reference tokens)
    (fun reference => ∀ option ∈ reference.options, option.Printable) := by
  unfold reference
  refine (mark_any h _).bind fun _ rest₁ _ _ h₁ => ?_
  refine (name_any h₁).bind fun _ rest₂ _ _ h₂ => ?_
  refine (mark_any h₂ _).bind fun _ rest₃ _ _ h₃ => ?_
  refine (name_any h₃).bind fun _ rest₄ _ _ h₄ => ?_
  dsimp only
  split
  · refine (mark_any h₄ _).bind fun _ rest₅ _ _ h₅ => ?_
    exact (referenceOptions_printable h₅).bind fun _ _ _ hoptions hrest => .ok hoptions hrest
  · exact .ok (by simp) h₄

/-! ### Properties and entities -/

theorem modifierAfter?_printable {word : String} {parse : Parse Modifier (tokens.length + 1)}
    (hm : modifierAfter? word tokens = some parse) :
    Guarantees parse (fun modifier => modifier.Plain → modifier.Printable) := by
  unfold modifierAfter? at hm
  split at hm
  case h_2 =>
    cases hm
    split
    · rw [List.forall_mem_cons] at h
      exact .ok (fun _ => trivial) h.2
    · exact .error
  case h_7 =>
    cases hm
    refine (defaultValue_printable h).bind fun value _ _ hvalue hrest => .ok ?_ hrest
    exact fun hp => hvalue (hp value rfl)
  case h_11 =>
    cases hm
    exact (reference_printable h).bind fun _ _ _ hoptions hrest => .ok (fun _ => hoptions) hrest
  case h_8 | h_9 | h_10 =>
    cases hm
    exact (string_any h).bind fun _ _ _ _ hrest => .ok (fun _ => trivial) hrest
  case h_12 => cases hm
  all_goals
    cases hm
    exact .ok (fun _ => trivial) h

theorem modifiers_printable : Guarantees (modifiers tokens)
    (fun list => ∀ modifier ∈ list, modifier.Plain → modifier.Printable) := by
  fun_induction modifiers tokens with
  | case1 word rest => exact .ok (by simp) h
  | case2 word rest parse hparse ih =>
      rw [List.forall_mem_cons] at h
      refine (modifierAfter?_printable h.2 hparse).bind fun modifier rest' h' hmodifier hs => ?_
      refine (ih rest' h' hs).bind fun more rest'' _ hmore hs' => .ok ?_ hs'
      rw [List.forall_mem_cons]
      exact ⟨hmodifier, hmore⟩
  | case3 => exact .ok (by simp) h

end

/-- The default values of the property are plain. -/
def Property.Plain (property : Property) : Prop := ∀ modifier ∈ property.modifiers, modifier.Plain

/-- The default values of the entity are plain. -/
def Entity.Plain (entity : Entity) : Prop := ∀ property ∈ entity.properties, property.Plain

section

variable {tokens : List Token} (h : ∀ t ∈ tokens, t.Sound)

include h

theorem property_printable :
    Guarantees (property tokens) (fun property => property.Plain → property.Printable) := by
  unfold property
  refine (name_any h).bind fun _ rest₁ _ _ h₁ => ?_
  refine (typeRef_printable h₁).bind fun type rest₂ _ htype h₂ => ?_
  refine (modifiers_printable h₂).bind fun list rest₃ _ hlist h₃ => .ok ?_ h₃
  exact fun hp => ⟨htype, fun modifier hmem => hlist modifier hmem (hp modifier hmem)⟩

theorem body_printable (entity : String) (seen : List String) :
    Guarantees (body entity seen tokens) (fun parts => (∀ hint ∈ parts.1, hint.Printable) ∧
      ∀ property ∈ parts.2, property.Plain → property.Printable) := by
  fun_induction body entity seen tokens with
  | case1 seen rest =>
      rw [List.forall_mem_cons] at h
      exact .ok (by simp) h.2
  | case2 seen rest ih =>
      rw [List.forall_mem_cons] at h
      refine (hint_printable h.2).bind fun first rest' h' hfirst hs' => ?_
      refine (ih rest' h' hs').bind fun parts rest'' _ hparts hs'' => .ok ?_ hs''
      rw [List.forall_mem_cons]
      exact ⟨⟨hfirst, hparts.1⟩, hparts.2⟩
  | case3 seen tokens _ _ ih =>
      refine (property_printable h).bind fun first rest h' hfirst hs => ?_
      dsimp only
      split
      · exact .error
      · refine (ih first rest h' hs).bind fun parts rest'' _ hparts hs'' => .ok ?_ hs''
        rw [List.forall_mem_cons]
        exact ⟨hparts.1, hfirst, hparts.2⟩

theorem entity_printable :
    Guarantees (entity tokens) (fun entity => entity.Plain → entity.Printable) := by
  unfold entity
  refine (name_any h).bind fun word rest₁ _ _ h₁ => ?_
  refine (mark_any h₁ _).bind fun _ rest₂ _ _ h₂ => ?_
  refine (body_printable h₂ word []).bind fun parts rest₃ _ hparts h₃ => .ok ?_ h₃
  exact fun hp => ⟨hparts.1, fun property hmem => hparts.2 property hmem (hp property hmem)⟩

theorem entities_printable {seen : List String} {list : List Entity}
    (hread : entities seen tokens = .ok list) :
    ∀ entity ∈ list, entity.Plain → entity.Printable := by
  fun_induction entities seen tokens generalizing list with
  | case1 | case2 =>
      cases hread
      simp
  | case3 seen rest ih =>
      rw [List.forall_mem_cons] at h
      obtain ⟨⟨first, rest', h'⟩, hfirst, hread⟩ := bind_eq_ok.mp hread
      obtain ⟨hfirst, hs⟩ := entity_printable h.2 _ hfirst
      dsimp only at hread
      split at hread
      · obtain ⟨_, hthrow, -⟩ := bind_eq_ok.mp hread
        exact absurd hthrow throw_ne_ok
      · obtain ⟨more, hmore, hread⟩ := bind_eq_ok.mp hread
        cases hread
        rw [List.forall_mem_cons]
        exact ⟨hfirst, ih first rest' h' hs hmore⟩
  | case4 => cases hread

end

/-- What is parsed can be printed, if its default values are plain. -/
theorem parse_printable {source : String} {document : Document} (h : parse source = .ok document)
    (hp : ∀ e ∈ document.entities, e.Plain) : ∀ e ∈ document.entities, e.Printable := by
  unfold parse at h
  split at h
  · cases h
  · rename_i tokens htokens
    obtain ⟨list, hlist, rfl⟩ := map_eq_ok.mp h
    exact fun e he => entities_printable (sound_scan htokens) hlist e he (hp e he)

/-! ## The order in which modifiers are written -/

/-- One list is another one sorted by rank, and elements of one rank stay as they were. -/
structure StablySorted {α : Type} (rank : α → Nat) (before after : List α) : Prop where
  perm : after.Perm before
  sorted : after.Pairwise (rank · ≤ rank ·)
  stable : ∀ n, after.filter (rank · = n) = before.filter (rank · = n)

theorem stablySorted_mergeSort {α : Type} (rank : α → Nat) (list : List α) :
    StablySorted rank list (list.mergeSort fun a b => rank a ≤ rank b) := by
  have htrans : ∀ a b c : α, decide (rank a ≤ rank b) = true → decide (rank b ≤ rank c) = true →
      decide (rank a ≤ rank c) = true := by
    simp only [decide_eq_true_eq]
    omega
  have htotal : ∀ a b : α, (decide (rank a ≤ rank b) || decide (rank b ≤ rank a)) = true := by
    simp only [Bool.or_eq_true, decide_eq_true_eq]
    omega
  refine ⟨List.mergeSort_perm _ _, ?_, fun n => ?_⟩
  · simpa using List.pairwise_mergeSort htrans htotal list
  · -- what has one rank is sorted as it is, so it is found in the sorted list as it is
    have hequal : (list.filter (rank · = n)).Pairwise (fun a b => decide (rank a ≤ rank b)) := by
      refine List.pairwise_of_forall_mem_list fun a ha b hb => ?_
      have hra := (List.mem_filter.mp ha).2
      have hrb := (List.mem_filter.mp hb).2
      simp only [decide_eq_true_eq] at hra hrb ⊢
      omega
    have hsub := (List.sublist_mergeSort htrans htotal hequal List.filter_sublist).filter (rank · = n)
    rw [List.filter_filter] at hsub
    simp only [Bool.and_self] at hsub
    refine (hsub.eq_of_length ?_).symm
    exact ((List.mergeSort_perm _ _).filter _).length_eq.symm

theorem ordered_ordered (list : List Modifier) : ordered (ordered list) = ordered list := by
  refine List.mergeSort_of_pairwise ?_
  exact (stablySorted_mergeSort Modifier.rank list).sorted.imp decide_eq_true

theorem Property.print_canonical (property : Property) (column : Nat) :
    property.canonical.print column = property.print column := by
  unfold Property.print Property.canonical
  dsimp only
  rw [ordered_ordered]

theorem Entity.print_canonical (entity : Entity) : entity.canonical.print = entity.print := by
  have hproperty : ∀ column, (fun p : Property => p.canonical.print column) =
      fun p => p.print column := fun column => funext fun p => p.print_canonical column
  unfold Entity.print Entity.canonical
  simp only [List.map_map, Function.comp_def, hproperty]
  rfl

/-- The order of modifiers does not show in the text. -/
theorem Document.print_canonical (document : Document) :
    document.canonical.print = document.print := by
  unfold Document.print Document.canonical
  rw [List.map_map]
  exact congrArg _ (List.map_congr_left fun e _ => e.print_canonical)

/-! ## Printing and parsing -/

/-- The default value that a modifier gives. -/
def Modifier.default? : Modifier → Option Literal
  | .default value => some value
  | _ => none

/-- All default values of a document. -/
def Document.defaults (document : Document) : List Literal :=
  document.entities.flatMap fun entity => entity.properties.flatMap fun property =>
    property.modifiers.filterMap (·.default?)

theorem mem_defaults {document : Document} {e : Entity} (he : e ∈ document.entities) {p : Property}
    (hp : p ∈ e.properties) {value : Literal} (hm : .default value ∈ p.modifiers) :
    value ∈ document.defaults :=
  List.mem_flatMap.mpr ⟨e, he, List.mem_flatMap.mpr ⟨p, hp,
    List.mem_filterMap.mpr ⟨.default value, hm, rfl⟩⟩⟩

/-- **Printing and parsing are inverse on documents.** What is parsed, without calls and infinite
decimals among its default values, is printed as a text that is parsed again: as the same document
but for its modifiers, which are sorted by their rank, those of one rank staying in order. To print
that document gives the same text. -/
theorem print_inverse_of_parse {source : String} {document : Document}
    (h : parse source = .ok document) (hcalls : ∀ value ∈ document.defaults, ¬ value.IsCall)
    (hfinite : ∀ x, .decimal x ∈ document.defaults → x.isFinite = true) :
    parse document.print = .ok document.canonical ∧ document.canonical.print = document.print ∧
      ∀ e ∈ document.entities, ∀ p ∈ e.properties,
        StablySorted Modifier.rank p.modifiers p.canonical.modifiers := by
  have hplain : ∀ e ∈ document.entities, e.Plain := by
    rintro e he p hp modifier hm value rfl
    have hmem := mem_defaults he hp hm
    refine ⟨hcalls value hmem, ?_⟩
    rintro x rfl
    exact hfinite x hmem
  refine ⟨?_, document.print_canonical, ?_⟩
  · exact parse_print (parse_printable h hplain) (parse_distinct h)
  · exact fun e _ p _ => stablySorted_mergeSort Modifier.rank p.modifiers

/-- A document whose names need quotes and whose modifiers are out of order. -/
def reservedWords : Document :=
  ⟨[{ name := "entity"
      hints := [⟨"map.to", .str "a\"b\n"⟩]
      properties :=
        [{ name := "", type := ⟨"decimal", [10, -2]⟩,
           modifiers := [.default (.decimal (.ofDigits true ['1'] ['5', '0'] 0)), .notNull, .pk] },
         { name := "été", type := ⟨"string", []⟩,
           modifiers :=
             [.fk ⟨"not", "a.b", [.kind "owns", .join "é" "#"]⟩, .doc "\\ \x7b", .null,
              .default (.ident "pk"), .notNull] }] }]⟩

/-- A text of this document. -/
def reservedWordsSource : String :=
  "entity \"entity\"\x7b@map.to=\"a\\\"b\\n\"" ++
  "\"\" decimal(10,-2)default -1.50not null pk\n" ++
  "été string fk->\"not\".\"a.b\"[owns,join=é->\"#\"]doc\"\\\\ \x7b\"null default pk not null\x7d"

/-- The text is printed in good order and parsed again. -/
theorem reservedWords_parsed_again : parse reservedWordsSource = .ok reservedWords ∧
    parse reservedWords.print = .ok reservedWords.canonical ∧
      reservedWords.canonical.print = reservedWords.print ∧
      ∀ e ∈ reservedWords.entities, ∀ p ∈ e.properties,
        StablySorted Modifier.rank p.modifiers p.canonical.modifiers := by
  have hparse : parse reservedWordsSource = .ok reservedWords := ok_of_toOption (by decide +kernel)
  have hdefaults : reservedWords.defaults =
      [.decimal (.ofDigits true ['1'] ['5', '0'] 0), .ident "pk"] := rfl
  refine ⟨hparse, print_inverse_of_parse hparse ?_ ?_⟩
  · rw [hdefaults, List.forall_mem_cons, List.forall_mem_singleton]
    refine ⟨?_, not_isCall_of_isWord (by decide +kernel)⟩
    rintro ⟨word, args, heq⟩
    cases heq
  · intro x hx
    rw [hdefaults] at hx
    have hx : x = .ofDigits true ['1'] ['5', '0'] 0 := by simpa using hx
    rw [hx]
    decide +kernel

end ErModel.Source
