import ErModel.Schema.Id
import ErModel.Schema.Name

/-!
# New names and new ids

A search for something unused finds it, since the candidates are distinct and there are more of
them than used values. That candidates are distinct comes down to how numbers are written: the
number can be read back from the name or the id it was put into. The ids of a supply are distinct
because its codes are. From the id of a join more can be read: the tables that it was declared
between, as long as what separates them in the id is not part of their own ids.
-/

namespace ErModel

/-- There are as many used values as candidates among them. -/
theorem le_length_of_candidates {α : Type} {used : List α} {candidate : Nat → α}
    (hinj : Function.Injective candidate) (start : Nat) {count : Nat}
    (h : ∀ n, start ≤ n → n < start + count → candidate n ∈ used) : count ≤ used.length := by
  have hsub : (List.range' start count).map candidate ⊆ used := by
    intro x hx
    obtain ⟨n, hn, rfl⟩ := List.mem_map.mp hx
    rw [List.mem_range'_1] at hn
    exact h n hn.1 hn.2
  have hnodup : ((List.range' start count).map candidate).Nodup :=
    List.Pairwise.map candidate (fun a b hab h => hab (hinj h)) List.nodup_range'
  simpa using hnodup.length_le_of_subset hsub

section Search

variable {α : Type} [DecidableEq α] {used : List α} {candidate : Nat → α} {start : Nat}

/-- **The candidates before the first unused one are used.** -/
theorem mem_of_lt_firstUnused {n : Nat} (hs : start ≤ n) (hn : n < firstUnused used candidate start) :
    candidate n ∈ used := by
  unfold firstUnused at hn
  cases hf : (List.range' start used.length).find? fun n => candidate n ∉ used with
  | some m =>
      rw [hf, Option.getD_some] at hn
      have hrange := (List.find?_range'_eq_some.mp hf).2.2 n hs hn
      simpa using hrange
  | none =>
      rw [hf, Option.getD_none] at hn
      simpa using List.find?_eq_none.mp hf n (List.mem_range'_1.mpr ⟨hs, hn⟩)

/-- **The first unused candidate is unused.** -/
theorem firstUnused_not_mem (hinj : Function.Injective candidate) (start : Nat) :
    candidate (firstUnused used candidate start) ∉ used := by
  unfold firstUnused
  cases hf : (List.range' start used.length).find? fun n => candidate n ∉ used with
  | some n => simpa using List.find?_some hf
  | none =>
      intro hlast
      -- all candidates up to this one are used, and they are too many
      have hall : ∀ n, start ≤ n → n < start + (used.length + 1) → candidate n ∈ used := by
        intro n hs hn
        by_cases hlt : n < start + used.length
        · simpa using List.find?_eq_none.mp hf n (List.mem_range'_1.mpr ⟨hs, hlt⟩)
        · have : n = start + used.length := by omega
          exact this ▸ hlast
      have := le_length_of_candidates hinj start hall
      omega

theorem le_firstUnused : start ≤ firstUnused used candidate start := by
  unfold firstUnused
  cases hf : (List.range' start used.length).find? fun n => candidate n ∉ used with
  | some n => exact (List.mem_range'_1.mp (List.mem_of_find?_eq_some hf)).1
  | none => exact Nat.le_add_right _ _

/-- The search ends after as many candidates as there are used values that may be candidates. -/
theorem firstUnused_le (hinj : Function.Injective candidate) {taken : List α}
    (h : ∀ n, candidate n ∈ used → candidate n ∈ taken) :
    firstUnused used candidate start ≤ start + taken.length := by
  have hs : start ≤ firstUnused used candidate start := le_firstUnused
  have hcount : firstUnused used candidate start - start ≤ taken.length :=
    le_length_of_candidates hinj start fun n hn hlt => h n (mem_of_lt_firstUnused hn (by omega))
  omega

end Search

theorem toString_injective : Function.Injective (toString : Nat → String) := by
  intro m n h
  have hd : Nat.toDigits 10 m = Nat.toDigits 10 n := by
    rw [← Nat.toList_repr, ← Nat.toList_repr]
    exact congrArg String.toList h
  rw [← Nat.ofDigitChars_ten_toDigits (n := m), hd, Nat.ofDigitChars_ten_toDigits]

/-- A number can be read back from behind a text, whatever the text ends in. -/
theorem numbered_injective (base : String) : Function.Injective fun n : Nat => base ++ toString n :=
  fun _ _ h => toString_injective ((String.append_right_inj base).mp h)

/-- **A free name is free.** -/
theorem freeName_not_mem (used : List String) (base : String) : freeName used base ∉ used := by
  unfold freeName
  split
  · exact firstUnused_not_mem (numbered_injective base) 2
  · assumption

/-! ## Ids from a supply -/

/-- The ids of a supply are distinct. -/
theorem IdSupply.text_injective (ids : IdSupply) : Function.Injective ids.text := by
  intro m n h
  have := ids.codes.injective ((String.append_right_inj ids.stem).mp h)
  omega

/-- What separates the parts of the id of a join does not occur in a code. -/
theorem IdCodes.ne_of_mem_code (codes : IdCodes) {n : Nat} {c : Char}
    (hc : c ∈ (codes.code n).toList) : c ≠ '-' ∧ c ≠ '#' := by
  have hdigits : hexadecimal.all (fun d => d ≠ '-' ∧ d ≠ '#') = true := by decide
  exact of_decide_eq_true (List.all_eq_true.mp hdigits c (codes.digits n c hc))

/-! ## Ids of joins -/

namespace JoinId

/-- What tells the `n`-th join between two tables from the others. -/
def suffix : Nat → String
  | 0 => ""
  | n + 1 => "#" ++ toString (n + 1)

theorem nth_eq (source target : TableId) (n : Nat) :
    nth source target n = ⟨source.text ++ "->" ++ target.text ++ suffix n⟩ := by
  cases n with
  | zero => simp [nth, between, suffix]
  | succ n => simp [nth, suffix, String.append_assoc]

theorem suffix_injective : Function.Injective suffix := by
  intro m n h
  cases m with
  | zero =>
      cases n with
      | zero => rfl
      | succ n =>
          have := congrArg String.toList h
          simp [suffix] at this
  | succ m =>
      cases n with
      | zero =>
          have := congrArg String.toList h
          simp [suffix] at this
      | succ n => exact toString_injective ((String.append_right_inj "#").mp h)

/-- The joins between two tables have distinct ids. -/
theorem nth_injective (source target : TableId) : Function.Injective (nth source target) := by
  intro m n h
  rw [nth_eq, nth_eq, JoinId.mk.injEq, String.append_right_inj] at h
  exact suffix_injective h

theorem split_unique {c : Char} {xs ys xs' ys' : List Char} (hx : c ∉ xs) (hx' : c ∉ xs')
    (h : xs ++ c :: ys = xs' ++ c :: ys') : xs = xs' ∧ ys = ys' := by
  induction xs generalizing xs' with
  | nil =>
      cases xs' with
      | nil => exact ⟨rfl, by simpa using h⟩
      | cons x' xs' =>
          simp only [List.nil_append, List.cons_append, List.cons.injEq] at h
          exact absurd (h.1 ▸ List.mem_cons_self) hx'
  | cons x xs ih =>
      cases xs' with
      | nil =>
          simp only [List.nil_append, List.cons_append, List.cons.injEq] at h
          exact absurd (h.1 ▸ List.mem_cons_self) hx
      | cons x' xs' =>
          simp only [List.cons_append, List.cons.injEq] at h
          simp only [List.mem_cons, not_or] at hx hx'
          obtain ⟨hxs, hys⟩ := ih hx.2 hx'.2 h.2
          exact ⟨by rw [h.1, hxs], hys⟩

theorem suffix_split {xs xs' : List Char} (hx : '#' ∉ xs) (hx' : '#' ∉ xs') {n n' : Nat}
    (h : xs ++ (suffix n).toList = xs' ++ (suffix n').toList) : xs = xs' ∧ n = n' := by
  have hsucc : ∀ m, (suffix (m + 1)).toList = '#' :: (toString (m + 1)).toList := fun m => by
    simp [suffix]
  have hxs : xs = xs' := by
    cases n with
    | zero =>
        cases n' with
        | zero => simpa [suffix] using h
        | succ n' =>
            rw [hsucc] at h
            have : '#' ∈ xs ++ (suffix 0).toList := by rw [h]; simp
            simp [suffix, hx] at this
    | succ n =>
        cases n' with
        | zero =>
            rw [hsucc] at h
            have : '#' ∈ xs' ++ (suffix 0).toList := by rw [← h]; simp
            simp [suffix, hx'] at this
        | succ n' =>
            rw [hsucc, hsucc] at h
            exact (split_unique hx hx' h).1
  refine ⟨hxs, suffix_injective (String.toList_injective ?_)⟩
  rw [hxs] at h
  exact List.append_cancel_left h

/-- The id of a join tells which table of a supply declares it. -/
theorem nth_source_inj {ids : IdSupply} {a a' n n' : Nat} {t t' : TableId}
    (h : nth (ids.tableId a) t n = nth (ids.tableId a') t' n') : a = a' := by
  have hdash : ∀ k, '-' ∉ (ids.codes.code k).toList := fun k hk =>
    (ids.codes.ne_of_mem_code hk).1 rfl
  rw [nth_eq, nth_eq, JoinId.mk.injEq] at h
  have hl := congrArg String.toList h
  have harrow : "->".toList = ['-', '>'] := by decide
  simp only [IdSupply.tableId, IdSupply.text, String.toList_append, harrow, List.append_assoc,
    List.cons_append, List.nil_append, List.append_cancel_left_eq] at hl
  have hsource := ids.codes.injective
    (String.toList_injective (split_unique (hdash _) (hdash _) hl).1)
  omega

/-- The id of a join tells which table of a supply it refers to. -/
theorem nth_target_inj {ids : IdSupply} {source : TableId} {b n b' n' : Nat}
    (h : nth source (ids.tableId b) n = nth source (ids.tableId b') n') : b = b' ∧ n = n' := by
  have hsign : ∀ k, '#' ∉ (ids.codes.code k).toList := fun k hk =>
    (ids.codes.ne_of_mem_code hk).2 rfl
  rw [nth_eq, nth_eq, JoinId.mk.injEq] at h
  have hl := congrArg String.toList h
  simp only [IdSupply.tableId, IdSupply.text, String.toList_append, List.append_assoc,
    List.append_cancel_left_eq] at hl
  obtain ⟨htarget, hn⟩ := suffix_split (hsign _) (hsign _) hl
  have hb := ids.codes.injective (String.toList_injective htarget)
  exact ⟨by omega, hn⟩

/-- **Joins between tables of one supply have distinct ids.** -/
theorem nth_supply_inj {ids : IdSupply} {a b n a' b' n' : Nat}
    (h : nth (ids.tableId a) (ids.tableId b) n = nth (ids.tableId a') (ids.tableId b') n') :
    a = a' ∧ b = b' ∧ n = n' := by
  obtain rfl := nth_source_inj h
  exact ⟨rfl, nth_target_inj h⟩

end JoinId

/-! ## Plain ids -/

/-- Neither the arrow nor the number sign of the id of a join can be made of the text. Generated ids
are plain, since they have nothing but hexadecimal digits. -/
def PlainText (text : String) : Prop := '-' ∉ text.toList ∧ '#' ∉ text.toList

instance (text : String) : Decidable (PlainText text) :=
  inferInstanceAs (Decidable (_ ∧ _))

/-- The ids of a supply are plain. -/
theorem IdSupply.plain_text {ids : IdSupply} (h : PlainText ids.stem) (n : Nat) :
    PlainText (ids.text n) := by
  refine ⟨fun hmem => ?_, fun hmem => ?_⟩
  · rw [text, String.toList_append, List.mem_append] at hmem
    exact hmem.elim h.1 fun hc => (ids.codes.ne_of_mem_code hc).1 rfl
  · rw [text, String.toList_append, List.mem_append] at hmem
    exact hmem.elim h.2 fun hc => (ids.codes.ne_of_mem_code hc).2 rfl

/-- A text without a dash has no arrow. -/
theorem PlainText.no_arrow {text : String} (h : PlainText text) :
    ¬ "->".toList <:+: text.toList :=
  fun harrow => h.1 (harrow.subset (by decide))

namespace JoinId

/-! ## Reading the id of a join -/

/-- A text without an arrow is all that stands before an arrow behind it. Should it end in a dash,
the arrow still starts at the dash after that one. -/
theorem splitArrow_append {before : List Char} (h : ¬ ['-', '>'] <:+: before) (behind : List Char) :
    splitArrow (before ++ '-' :: '>' :: behind) = some (before, behind) := by
  induction before with
  | nil => rfl
  | cons c rest ih =>
      have hrest : ¬ ['-', '>'] <:+: rest := fun harrow =>
        h (harrow.trans (List.suffix_cons c rest).isInfix)
      have hnone : ∀ tail, c = '-' → rest ++ '-' :: '>' :: behind = '>' :: tail → False := by
        rintro tail rfl htail
        cases rest with
        | nil => cases htail
        | cons d rest =>
            obtain rfl := (List.cons.inj htail).1
            exact h ((List.prefix_append ['-', '>'] rest).isInfix)
      rw [List.cons_append, splitArrow.eq_3 _ _ hnone, ih hrest]
      rfl

/-- What stands before a number sign, or before the end, is read up to there. -/
theorem takeWhile_suffix {target : List Char} (h : '#' ∉ target) (n : Nat) :
    (target ++ (suffix n).toList).takeWhile (· ≠ '#') = target := by
  have hall : ∀ c ∈ target, decide (c ≠ '#') = true := by
    intro c hc
    rw [decide_eq_true_eq]
    rintro rfl
    exact h hc
  rw [List.takeWhile_append_of_pos hall]
  cases n with
  | zero => simp [suffix]
  | succ n => simp [suffix]

/-- **The tables that a join was declared between are read from its id.** -/
theorem endpoints?_nth {source target : TableId} (hs : ¬ "->".toList <:+: source.text.toList)
    (ht : '#' ∉ target.text.toList) (n : Nat) :
    (nth source target n).endpoints? = some (source, target) := by
  have htext : (nth source target n).text.toList =
      source.text.toList ++ '-' :: '>' :: (target.text.toList ++ (suffix n).toList) := by
    rw [nth_eq]
    simp
  rw [endpoints?, htext, splitArrow_append hs, Option.map_some]
  dsimp only
  rw [takeWhile_suffix ht, String.ofList_toList, String.ofList_toList]

/-- **The id of a join tells the tables that it was declared between, and which of their joins it
is.** -/
theorem nth_inj {a b a' b' : TableId} (ha : ¬ "->".toList <:+: a.text.toList)
    (hb : '#' ∉ b.text.toList) (ha' : ¬ "->".toList <:+: a'.text.toList)
    (hb' : '#' ∉ b'.text.toList) {n n' : Nat} (h : nth a b n = nth a' b' n') :
    a = a' ∧ b = b' ∧ n = n' := by
  have hread : some (a, b) = some (a', b') := by
    rw [← endpoints?_nth ha hb n, h, endpoints?_nth ha' hb' n']
  cases hread
  exact ⟨rfl, rfl, nth_injective a b h⟩

/-- It does so for tables with plain ids. -/
theorem nth_plain_inj {a b a' b' : TableId} (ha : PlainText a.text) (hb : PlainText b.text)
    (ha' : PlainText a'.text) (hb' : PlainText b'.text) {n n' : Nat}
    (h : nth a b n = nth a' b' n') : a = a' ∧ b = b' ∧ n = n' :=
  nth_inj ha.no_arrow hb.2 ha'.no_arrow hb'.2 h

/-- The source has no arrow in its id and the target no number sign, so the id of a join between them
falls into its parts at the first arrow and at the first number sign behind it. -/
def Separable (source target : TableId) : Prop :=
  ¬ "->".toList <:+: source.text.toList ∧ '#' ∉ target.text.toList

instance (source target : TableId) : Decidable (Separable source target) :=
  inferInstanceAs (Decidable (_ ∧ _))

/-- **The id of a join encodes its endpoints.** They are read back from the ids of all joins between
them, two such ids are the same only for the same tables and the same number, and generated ids are
all of this kind. -/
theorem nth_encodes :
    (∀ (source target : TableId) (n : Nat), Separable source target →
      (nth source target n).endpoints? = some (source, target)) ∧
    (∀ (source target source' target' : TableId) (n n' : Nat), Separable source target →
      Separable source' target' → (nth source target n = nth source' target' n' ↔
        source = source' ∧ target = target' ∧ n = n')) ∧
    ∀ (ids ids' : IdSupply) (a b : Nat), PlainText ids.stem → PlainText ids'.stem →
      Separable (ids.tableId a) (ids'.tableId b) := by
  refine ⟨fun source target n h => endpoints?_nth h.1 h.2 n,
    fun source target source' target' n n' h h' => ⟨nth_inj h.1 h.2 h'.1 h'.2, ?_⟩,
    fun ids ids' a b h h' => ⟨(IdSupply.plain_text h a).no_arrow, (IdSupply.plain_text h' b).2⟩⟩
  rintro ⟨rfl, rfl, rfl⟩
  rfl

/-- A dash before the arrow and another arrow behind it do no harm. -/
theorem nth_encodes_dashes :
    (Separable ⟨"a-"⟩ ⟨"b->c"⟩ ∧
      (nth ⟨"a-"⟩ ⟨"b->c"⟩ 1).endpoints? = some (⟨"a-"⟩, ⟨"b->c"⟩)) ∧
    (Separable ⟨"a"⟩ ⟨">b->c"⟩ ∧
      (nth ⟨"a-"⟩ ⟨"b->c"⟩ 1 = nth ⟨"a"⟩ ⟨">b->c"⟩ 1 ↔
        (⟨"a-"⟩ : TableId) = ⟨"a"⟩ ∧ (⟨"b->c"⟩ : TableId) = ⟨">b->c"⟩ ∧ 1 = 1)) ∧
    PlainText "0f" ∧ PlainText "1e" ∧
      Separable (IdSupply.tableId ⟨"0f", 0⟩ 3) (IdSupply.tableId ⟨"1e", 0⟩ 5) := by
  have hdashes : Separable ⟨"a-"⟩ ⟨"b->c"⟩ := by decide
  have hother : Separable ⟨"a"⟩ ⟨">b->c"⟩ := by decide
  have hstem : PlainText "0f" := by decide
  have hstem' : PlainText "1e" := by decide
  exact ⟨⟨hdashes, nth_encodes.1 _ _ 1 hdashes⟩,
    ⟨hother, nth_encodes.2.1 _ _ _ _ 1 1 hdashes hother⟩, hstem, hstem',
    nth_encodes.2.2 _ _ 3 5 hstem hstem'⟩

end JoinId

end ErModel
