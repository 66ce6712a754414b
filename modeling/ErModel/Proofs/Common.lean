import ErModel.Schema.Basic
import Mathlib.Data.List.Forall2

/-!
# Results and lists

What the proofs about edits need again and again: when a chain of steps succeeds, and what changing
the first element that fits does to a list.
-/

namespace ErModel

/-- A chain of two steps succeeds if the first one does, and the second one with its value. -/
theorem bind_eq_ok {ε α β : Type} {x : Except ε α} {f : α → Except ε β} {r : β} :
    (x >>= f) = .ok r ↔ ∃ a, x = .ok a ∧ f a = .ok r := by
  cases x with
  | error e => simp [bind, Except.bind]
  | ok a => simp [bind, Except.bind]

/-- A check and what comes after it succeed if both do. -/
theorem check_bind_eq_ok {ε β : Type} {x : Except ε Unit} {f : Unit → Except ε β} {r : β} :
    (x >>= f) = .ok r ↔ x = .ok () ∧ f () = .ok r := by
  rw [bind_eq_ok]
  exact ⟨fun ⟨(), h⟩ => h, fun h => ⟨(), h⟩⟩

theorem pure_eq_ok {ε α : Type} {a r : α} : (pure a : Except ε α) = .ok r ↔ a = r := by
  rw [show (pure a : Except ε α) = .ok a from rfl, Except.ok.injEq]

theorem throw_ne_ok {ε α : Type} {e : ε} {r : α} : (throw e : Except ε α) ≠ .ok r := by
  intro h
  cases h

theorem map_eq_ok {ε α β : Type} {x : Except ε α} {f : α → β} {r : β} :
    (f <$> x) = .ok r ↔ ∃ a, x = .ok a ∧ f a = r := by
  cases x with
  | error e => simp [Functor.map, Except.map]
  | ok a => simp [Functor.map, Except.map]

/-- A result is decided by what it is if all goes well. -/
theorem ok_of_toOption {ε α : Type} {x : Except ε α} {a : α} (h : x.toOption = some a) :
    x = .ok a := by
  cases x with
  | error e => cases h
  | ok b =>
      cases h
      rfl

/-! ## Changing the first element that fits -/

section ModifyFirst

variable {α : Type} {p : α → Bool} {f : α → α}

theorem modifyFirst_append_cons {before : List α} {x : α} {behind : List α} (hx : p x = true)
    (hb : ∀ y ∈ before, p y = false) :
    modifyFirst p f (before ++ x :: behind) = before ++ f x :: behind := by
  induction before with
  | nil => simp [modifyFirst, hx]
  | cons y before ih =>
      have hy : p y = false := hb y List.mem_cons_self
      rw [List.cons_append, modifyFirst, if_neg (by simp [hy]),
        ih (fun z hz => hb z (List.mem_cons_of_mem _ hz)), List.cons_append]

theorem modifyFirst_of_forall {xs : List α} (h : ∀ x ∈ xs, p x = false) :
    modifyFirst p f xs = xs := by
  induction xs with
  | nil => rfl
  | cons x rest ih =>
      have hx : p x = false := h x List.mem_cons_self
      rw [modifyFirst, if_neg (by simp [hx]), ih (fun y hy => h y (List.mem_cons_of_mem _ hy))]

theorem mem_modifyFirst_of_neg {xs : List α} {x : α} (hx : x ∈ xs) (hp : p x = false) :
    x ∈ modifyFirst p f xs := by
  induction xs with
  | nil => exact hx
  | cons y rest ih =>
      rw [modifyFirst]
      split
      · rename_i hy
        rcases List.mem_cons.mp hx with rfl | hmem
        · simp [hp] at hy
        · exact List.mem_cons_of_mem _ hmem
      · rcases List.mem_cons.mp hx with rfl | hmem
        · exact List.mem_cons_self
        · exact List.mem_cons_of_mem _ (ih hmem)

/-- Every element is still there, or changed. -/
theorem mem_modifyFirst {xs : List α} {x : α} (hx : x ∈ xs) :
    x ∈ modifyFirst p f xs ∨ f x ∈ modifyFirst p f xs := by
  induction xs with
  | nil => cases hx
  | cons y rest ih =>
      rw [modifyFirst]
      split
      · rcases List.mem_cons.mp hx with rfl | hmem
        · exact Or.inr List.mem_cons_self
        · exact Or.inl (List.mem_cons_of_mem _ hmem)
      · rcases List.mem_cons.mp hx with rfl | hmem
        · exact Or.inl List.mem_cons_self
        · exact (ih hmem).imp (List.mem_cons_of_mem _) (List.mem_cons_of_mem _)

/-- The element that is found is the one that is changed. -/
theorem modifyFirst_of_find? {xs : List α} {x : α} (h : xs.find? p = some x) :
    ∃ before behind, xs = before ++ x :: behind ∧
      modifyFirst p f xs = before ++ f x :: behind := by
  obtain ⟨hx, before, behind, rfl, hb⟩ := List.find?_eq_some_iff_append.mp h
  exact ⟨before, behind, rfl, modifyFirst_append_cons hx (fun y hy => by simpa using hb y hy)⟩

end ModifyFirst

/-- Where the element is known by a key, it is changed wherever it stands. -/
theorem modifyFirst_eq_map {α β : Type} [DecidableEq β] {key : α → β} {f : α → α} {xs : List α}
    (hn : (xs.map key).Nodup) (k : β) :
    modifyFirst (key · = k) f xs = xs.map fun x => if key x = k then f x else x := by
  induction xs with
  | nil => rfl
  | cons x rest ih =>
      rw [List.map_cons, List.nodup_cons] at hn
      rw [modifyFirst, List.map_cons]
      by_cases hk : key x = k
      · rw [if_pos (by simpa using hk), if_pos hk]
        refine congrArg _ (Eq.trans (List.map_id' rest).symm (List.map_congr_left fun y hy => ?_))
        rw [if_neg fun he => hn.1 (List.mem_map.mpr ⟨y, hy, he.trans hk.symm⟩)]
      · rw [if_neg (by simpa using hk), if_neg hk, ih hn.2]

theorem filterMap_congr_left {α β : Type} {f g : α → Option β} {xs : List α}
    (h : ∀ x ∈ xs, f x = g x) : xs.filterMap f = xs.filterMap g := by
  induction xs with
  | nil => rfl
  | cons x rest ih =>
      rw [List.forall_mem_cons] at h
      rw [List.filterMap_cons, List.filterMap_cons, h.1, ih h.2]

/-! ## Lists side by side -/

section SideBySide

variable {α β : Type} {R : α → β → Prop} {xs : List α} {ys : List β}

theorem exists_right (h : List.Forall₂ R xs ys) {x : α} (hx : x ∈ xs) : ∃ y ∈ ys, R x y := by
  induction h with
  | nil => cases hx
  | @cons a b as bs hab _ ih =>
      rcases List.mem_cons.mp hx with rfl | hmem
      · exact ⟨b, List.mem_cons_self, hab⟩
      · obtain ⟨y, hy, hxy⟩ := ih hmem
        exact ⟨y, List.mem_cons_of_mem _ hy, hxy⟩

theorem exists_left (h : List.Forall₂ R xs ys) {y : β} (hy : y ∈ ys) : ∃ x ∈ xs, R x y :=
  exists_right (R := fun y x => R x y) h.flip hy

theorem forall₂_imp_mem {S : α → β → Prop} (h : List.Forall₂ R xs ys)
    (hs : ∀ x ∈ xs, ∀ y ∈ ys, R x y → S x y) : List.Forall₂ S xs ys := by
  induction h with
  | nil => exact .nil
  | cons hab _ ih =>
      refine .cons (hs _ List.mem_cons_self _ List.mem_cons_self hab) (ih fun x hx y hy => ?_)
      exact hs x (List.mem_cons_of_mem _ hx) y (List.mem_cons_of_mem _ hy)

theorem map_eq_of_forall₂ {γ : Type} {f : α → γ} {g : β → γ} (h : List.Forall₂ R xs ys)
    (hf : ∀ x y, R x y → g y = f x) : ys.map g = xs.map f := by
  induction h with
  | nil => rfl
  | cons hab _ ih => rw [List.map_cons, List.map_cons, hf _ _ hab, ih]

end SideBySide

/-! ## Elements known by a key -/

/-- The keys of a list differ from one another and from those seen before. -/
def NewTo {α β : Type} (key : α → β) (seen : List β) (xs : List α) : Prop :=
  (∀ x ∈ xs, key x ∉ seen) ∧ (xs.map key).Nodup

theorem newTo_nil {α β : Type} {key : α → β} {xs : List α} :
    NewTo key [] xs ↔ (xs.map key).Nodup := by
  simp [NewTo]

/-- A loop that remembers the keys it has met goes on with one more. -/
theorem newTo_cons {α β : Type} {key : α → β} {seen : List β} {x : α} {rest : List α} :
    NewTo key seen (x :: rest) ↔ key x ∉ seen ∧ NewTo key (key x :: seen) rest := by
  rw [NewTo, NewTo, List.map_cons, List.nodup_cons, List.forall_mem_cons]
  constructor
  · rintro ⟨⟨hx, hrest⟩, hne, hn⟩
    refine ⟨hx, fun y hy hmem => ?_, hn⟩
    rcases List.mem_cons.mp hmem with h | h
    · exact hne (List.mem_map.mpr ⟨y, hy, h⟩)
    · exact hrest y hy h
  · rintro ⟨hx, hrest, hn⟩
    refine ⟨⟨hx, fun y hy h => hrest y hy (List.mem_cons_of_mem _ h)⟩, ?_, hn⟩
    intro hmem
    obtain ⟨y, hy, h⟩ := List.mem_map.mp hmem
    exact hrest y hy (h ▸ List.mem_cons_self)

theorem findSome?_of_only {α β : Type} {f : α → Option β} {xs : List α} {x : α} {b : β} (hx : x ∈ xs)
    (hf : f x = some b) (honly : ∀ y ∈ xs, ∀ b', f y = some b' → b' = b) :
    xs.findSome? f = some b := by
  cases h : xs.findSome? f with
  | none => exact absurd ((List.findSome?_eq_none_iff.mp h x hx).symm.trans hf) (by simp)
  | some b' =>
      obtain ⟨y, hy, hfy⟩ := List.exists_of_findSome?_eq_some h
      rw [honly y hy b' hfy]

/-- Where keys differ, an element is the one found under its key. -/
theorem find?_key {α β : Type} [DecidableEq β] {key : α → β} {xs : List α} {x : α}
    (hn : (xs.map key).Nodup) (hx : x ∈ xs) : xs.find? (key · = key x) = some x := by
  induction xs with
  | nil => simp at hx
  | cons y rest ih =>
      rw [List.map_cons, List.nodup_cons] at hn
      rcases List.mem_cons.mp hx with rfl | hmem
      · simp
      · have hne : key y ≠ key x := fun h => hn.1 (List.mem_map.mpr ⟨x, hmem, h.symm⟩)
        rw [List.find?_cons_of_neg (by simpa using hne)]
        exact ih hn.2 hmem

/-- Where keys differ, elements with the same key are the same. -/
theorem eq_of_key_eq {α β : Type} {key : α → β} {xs : List α} (hn : (xs.map key).Nodup)
    {x y : α} (hx : x ∈ xs) (hy : y ∈ xs) (h : key x = key y) : x = y := by
  induction xs with
  | nil => simp at hx
  | cons z rest ih =>
      rw [List.map_cons, List.nodup_cons] at hn
      rcases List.mem_cons.mp hx with rfl | hx'
      · rcases List.mem_cons.mp hy with rfl | hy'
        · rfl
        · exact absurd (List.mem_map.mpr ⟨y, hy', h.symm⟩) hn.1
      · rcases List.mem_cons.mp hy with rfl | hy'
        · exact absurd (List.mem_map.mpr ⟨x, hx', h⟩) hn.1
        · exact ih hn.2 hx' hy'

/-- Where keys differ, a change of one element that leaves it as it is leaves all as they are. -/
theorem map_key_eq_self {α β : Type} [DecidableEq β] {key : α → β} {xs : List α}
    (hn : (xs.map key).Nodup) {x : α} (hx : x ∈ xs) {f : α → α} (hf : f x = x) :
    xs.map (fun y => if key y = key x then f y else y) = xs := by
  refine Eq.trans (List.map_congr_left fun y hy => ?_) (List.map_id' xs)
  by_cases h : key y = key x
  · rw [if_pos h, eq_of_key_eq hn hy hx h, hf]
  · rw [if_neg h]

/-- Where keys differ, an element can be put before the others. -/
theorem perm_cons_filter {α β : Type} [DecidableEq β] {key : α → β} {xs : List α} {x : α}
    (hn : (xs.map key).Nodup) (hx : x ∈ xs) :
    xs.Perm (x :: xs.filter (key · ≠ key x)) := by
  induction xs with
  | nil => simp at hx
  | cons y rest ih =>
      rw [List.map_cons, List.nodup_cons] at hn
      rcases List.mem_cons.mp hx with rfl | hmem
      · have hall : rest.filter (key · ≠ key x) = rest := List.filter_eq_self.mpr fun z hz => by
          have : key z ≠ key x := fun he => hn.1 (List.mem_map.mpr ⟨z, hz, he⟩)
          simpa using this
        rw [List.filter_cons_of_neg (by simp), hall]
      · have hne : key y ≠ key x := fun he => hn.1 (List.mem_map.mpr ⟨x, hmem, he.symm⟩)
        rw [List.filter_cons_of_pos (by simpa using hne)]
        exact ((ih hn.2 hmem).cons y).trans (List.Perm.swap ..)

/-- Where keys differ, one element has the key. -/
theorem filter_key {α β : Type} [DecidableEq β] {key : α → β} {xs : List α} {x : α}
    (hn : (xs.map key).Nodup) (hx : x ∈ xs) : xs.filter (key · = key x) = [x] := by
  have hperm := (perm_cons_filter hn hx).filter (key · = key x)
  rw [List.filter_cons_of_pos (by simp), List.filter_filter] at hperm
  have hothers : xs.filter (fun y => decide (key y = key x) && decide (key y ≠ key x)) = [] :=
    List.filter_eq_nil_iff.mpr fun y _ => by simp
  rw [hothers] at hperm
  exact List.perm_singleton.mp hperm

/-- Where keys differ, what only one of them contributes to is what that one contributes. -/
theorem flatMap_of_key {α β γ : Type} {key : α → β} {f : α → List γ} {xs : List α} {x : α}
    (hn : (xs.map key).Nodup) (hx : x ∈ xs) (hf : ∀ y ∈ xs, key y ≠ key x → f y = []) :
    xs.flatMap f = f x := by
  induction xs with
  | nil => cases hx
  | cons y rest ih =>
      rw [List.map_cons, List.nodup_cons] at hn
      rw [List.forall_mem_cons] at hf
      rw [List.flatMap_cons]
      rcases List.mem_cons.mp hx with rfl | hmem
      · have hrest : rest.flatMap f = [] := List.flatMap_eq_nil_iff.mpr fun z hz =>
          hf.2 z hz fun he => hn.1 (List.mem_map.mpr ⟨z, hz, he⟩)
        rw [hrest, List.append_nil]
      · rw [hf.1 fun he => hn.1 (List.mem_map.mpr ⟨x, hmem, he.symm⟩), ih hn.2 hmem hf.2]
        rfl

/-- Sorting the elements of a list by their keys only changes their order. -/
theorem flatMap_filter_perm {α β : Type} [DecidableEq β] {key : α → β} {ks : List β}
    (hn : ks.Nodup) {xs : List α} (h : ∀ x ∈ xs, key x ∈ ks) :
    (ks.flatMap fun k => xs.filter (key · = k)).Perm xs := by
  induction ks generalizing xs with
  | nil =>
      have hnone : xs = [] := List.eq_nil_iff_forall_not_mem.mpr fun x hx => by simpa using h x hx
      rw [hnone]
      exact .nil
  | cons k rest ih =>
      rw [List.nodup_cons] at hn
      have hrest : (rest.flatMap fun k' => xs.filter (key · = k')) =
          rest.flatMap fun k' => (xs.filter fun x => !decide (key x = k)).filter (key · = k') := by
        rw [List.flatMap_def, List.flatMap_def]
        refine congrArg _ (List.map_congr_left fun k' hk' => ?_)
        rw [List.filter_filter]
        refine List.filter_congr fun x _ => ?_
        by_cases hx : key x = k'
        · have hne : k' ≠ k := fun he => hn.1 (he ▸ hk')
          simp [hx, hne]
        · simp [hx]
      rw [List.flatMap_cons, hrest]
      refine ((ih hn.2 fun x hx => ?_).append_left _).trans (List.filter_append_perm _ xs)
      obtain ⟨hx, hne⟩ := List.mem_filter.mp hx
      exact (List.mem_cons.mp (h x hx)).resolve_left (by simpa using hne)

/-- Keys that differ go on to differ under a function that tells them apart. -/
theorem nodup_map_key {α β γ : Type} (key : α → β) (f : β → γ) {xs : List α}
    (hn : (xs.map key).Nodup)
    (hf : ∀ x ∈ xs, ∀ y ∈ xs, f (key x) = f (key y) → key x = key y) :
    (xs.map fun x => f (key x)).Nodup := by
  refine List.pairwise_map.mpr ?_
  refine List.Pairwise.imp_of_mem (fun {x y} hx hy hne he => hne ?_) (List.pairwise_map.mp hn)
  exact hf x hx y hy he

theorem map_mapIdx {α β γ : Type} (f : Nat → α → β) (g : β → γ) (xs : List α) :
    (xs.mapIdx f).map g = xs.mapIdx fun i x => g (f i x) := by
  rw [List.mapIdx_eq_zipIdx_map, List.mapIdx_eq_zipIdx_map, List.map_map]
  rfl

theorem lookup_of_mem {α β : Type} [DecidableEq α] {xs : List (α × β)} {k : α} {v : β}
    (hn : (xs.map (·.1)).Nodup) (h : (k, v) ∈ xs) : xs.lookup k = some v := by
  induction xs with
  | nil => cases h
  | cons x rest ih =>
      rw [List.map_cons, List.nodup_cons] at hn
      rcases List.mem_cons.mp h with rfl | hmem
      · exact List.lookup_cons_self
      · have hne : k ≠ x.1 := fun he => hn.1 (List.mem_map.mpr ⟨(k, v), hmem, he⟩)
        have hbeq : (k == x.1) = false := beq_eq_false_iff_ne.mpr hne
        rw [List.lookup_cons, hbeq]
        exact ih hn.2 hmem

theorem mem_of_lookup {α β : Type} [DecidableEq α] {xs : List (α × β)} {k : α} {v : β}
    (h : xs.lookup k = some v) : (k, v) ∈ xs := by
  obtain ⟨before, behind, rfl, -⟩ := List.lookup_eq_some_iff.mp h
  exact List.mem_append_right _ List.mem_cons_self

/-- A table of values by key, made from a list whose keys differ, gives for each key what was made
of its element. -/
theorem lookup_filterMap {π α β : Type} [DecidableEq α] {key : π → α} {value : π → Option β}
    {xs : List π} (hn : (xs.map key).Nodup) {x : π} (hx : x ∈ xs) :
    (xs.filterMap fun x => (value x).map fun v => (key x, v)).reverse.lookup (key x) =
      value x := by
  have hkeys : ((xs.filterMap fun x => (value x).map fun v => (key x, v)).map (·.1)).Nodup := by
    refine hn.sublist ?_
    clear hn hx
    induction xs with
    | nil => exact List.Sublist.slnil
    | cons y rest ih =>
        rw [List.filterMap_cons]
        cases value y with
        | none => exact ih.cons _
        | some v => exact ih.cons_cons _
  cases hv : value x with
  | some v =>
      refine lookup_of_mem ?_ ?_
      · exact ((List.reverse_perm _).map _).nodup_iff.mpr hkeys
      · exact List.mem_reverse.mpr (List.mem_filterMap.mpr ⟨x, hx, by rw [hv]; rfl⟩)
  | none =>
      rw [List.lookup_eq_none_iff]
      intro e he
      obtain ⟨y, hy, hmade⟩ := List.mem_filterMap.mp (List.mem_reverse.mp he)
      obtain ⟨w, hw, rfl⟩ := Option.map_eq_some_iff.mp hmade
      refine bne_iff_ne.mpr fun hkey => ?_
      rw [eq_of_key_eq hn hx hy hkey, hw] at hv
      cases hv

/-! ## Runs -/

/-- **A run is good throughout just if no step of it is bad.** It is enough that an invariant makes a
state good, and that a step from there leads to a good state, and keeps the invariant, just if it is
not bad. -/
theorem run_good_iff {σ ε : Type} {step : σ → ε → σ} {inv good : σ → Prop} {bad : σ → ε → Prop}
    {allowed : ε → Prop} {es : List ε} (hes : ∀ e ∈ es, allowed e) (hgood : ∀ s, inv s → good s)
    (hbad : ∀ s e, allowed e → inv s → good (step s e) → ¬ bad s e)
    (hinv : ∀ s e, allowed e → inv s → ¬ bad s e → inv (step s e)) {s : σ} (hs : inv s) :
    (∀ n, good ((es.take n).foldl step s)) ↔
      ∀ n e, es[n]? = some e → ¬ bad ((es.take n).foldl step s) e := by
  induction es generalizing s with
  | nil =>
      refine iff_of_true (fun n => ?_) fun n e he => ?_
      · rw [List.take_nil]
        exact hgood s hs
      · rw [List.getElem?_nil] at he
        cases he
  | cons first rest ih =>
      rw [List.forall_mem_cons] at hes
      constructor
      · intro hall
        have hfirst := hbad s first hes.1 hs (hall 1)
        have hrest := (ih hes.2 (hinv s first hes.1 hs hfirst)).mp fun n => hall (n + 1)
        rintro (_ | n) e he
        · exact Option.some.inj he ▸ hfirst
        · exact hrest n e he
      · intro hnone
        have hnext := hinv s first hes.1 hs (hnone 0 first rfl)
        rintro (_ | n)
        · exact hgood s hs
        · exact (ih hes.2 hnext).mpr (fun m e he => hnone (m + 1) e he) n

end ErModel
