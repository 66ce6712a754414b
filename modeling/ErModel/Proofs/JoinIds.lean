import ErModel.Proofs.Fresh
import ErModel.Proofs.Records
import ErModel.Reconcile

/-!
# Which ids joins get

Joins of an edited text keep their ids where they can, and the others get new ones afterwards. Two
phases write into one list of final ids, and what carries the proof through both is that each join
stands either in that list or among those that wait, and that no id has been given twice. Two joins
never want the same old id: it belonged to one column, and that is one of theirs at most.
-/

namespace ErModel

/-- The id that a join had before. -/
def Schema.kept? (previous : Schema) (owned : OwnedJoin) : Option JoinId :=
  owned.join.peer?.bind (previous.keptId? owned)

namespace JoinIds

/-- The joins in `done` stand in the list or wait, and no id is given twice. -/
structure Sound (ids : JoinIds) (done : List JoinId) : Prop where
  used : ids.used = ids.assigned.map (·.2)
  nodup : ids.used.Nodup
  keys : (ids.assigned.map (·.1) ++ ids.waiting.map (·.1)).Perm done

/-- The joins in `done` that had an id before have it again, and only they have one yet. -/
structure Keeping (previous : Schema) (ids : JoinIds) (done : List OwnedJoin) : Prop where
  sound : ids.Sound (done.map (·.join.id))
  kept : ∀ o ∈ done, ∀ id, previous.kept? o = some id → (o.join.id, id) ∈ ids.assigned
  origin : ∀ e ∈ ids.assigned, ∃ o ∈ done, previous.kept? o = some e.2

theorem keeping_nil (previous : Schema) : Keeping previous ⟨[], [], []⟩ [] :=
  ⟨⟨rfl, List.nodup_nil, .nil⟩, by simp, by simp⟩

theorem keep_eq {previous : Schema} (ids : JoinIds) {owned : OwnedJoin} {target : TableId}
    (ht : owned.join.peer? = some target) :
    keep previous ids owned = match previous.kept? owned with
      | some id =>
        if id ∈ ids.used then
          { ids with waiting := ids.waiting ++ [(owned.join.id, owned.holder.id, target)] }
        else { ids with assigned := (owned.join.id, id) :: ids.assigned, used := id :: ids.used }
      | none =>
        { ids with waiting := ids.waiting ++ [(owned.join.id, owned.holder.id, target)] } := by
  rw [keep, Schema.kept?, ht]
  rfl

/-- An id that no other join wants has not been given: whoever has it would have wanted it. -/
theorem Keeping.free {previous : Schema} {ids : JoinIds} {done : List OwnedJoin}
    (h : Keeping previous ids done) {id : JoinId}
    (hwanted : ∀ o ∈ done, previous.kept? o ≠ some id) : id ∉ ids.used := by
  intro hmem
  rw [h.sound.used] at hmem
  obtain ⟨e, he, rfl⟩ := List.mem_map.mp hmem
  obtain ⟨o, ho, hid⟩ := h.origin e he
  exact hwanted o ho hid

/-- A join that wants no id of another is kept or waits. -/
theorem Keeping.concat {previous : Schema} {ids : JoinIds} {done : List OwnedJoin}
    (h : Keeping previous ids done) {owned : OwnedJoin} (ht : owned.join.peer?.isSome = true)
    (hwanted : ∀ o ∈ done, ∀ id, previous.kept? o = some id → previous.kept? owned ≠ some id) :
    Keeping previous (keep previous ids owned) (done ++ [owned]) := by
  obtain ⟨target, ht⟩ := Option.isSome_iff_exists.mp ht
  rw [keep_eq ids ht]
  cases hk : previous.kept? owned with
  | none =>
      refine ⟨⟨h.sound.used, h.sound.nodup, ?_⟩, ?_, ?_⟩
      · rw [List.map_append, List.map_append, ← List.append_assoc]
        exact h.sound.keys.append_right _
      · intro o ho id hid
        rcases List.mem_append.mp ho with ho | ho
        · exact h.kept o ho id hid
        · rw [List.mem_singleton.mp ho, hk] at hid
          cases hid
      · intro e he
        obtain ⟨o, ho, hid⟩ := h.origin e he
        exact ⟨o, List.mem_append_left _ ho, hid⟩
  | some id =>
      have hfree : id ∉ ids.used := h.free fun o ho hid => hwanted o ho id hid hk
      dsimp only
      rw [if_neg hfree]
      refine ⟨⟨?_, List.nodup_cons.mpr ⟨hfree, h.sound.nodup⟩, ?_⟩, ?_, ?_⟩
      · rw [List.map_cons, h.sound.used]
      · rw [List.map_cons, List.cons_append, List.map_append]
        exact (h.sound.keys.cons _).trans (List.perm_append_singleton _ _).symm
      · intro o ho other hother
        rcases List.mem_append.mp ho with ho | ho
        · exact List.mem_cons_of_mem _ (h.kept o ho other hother)
        · rw [List.mem_singleton.mp ho] at hother ⊢
          rw [hk, Option.some.injEq] at hother
          rw [hother]
          exact List.mem_cons_self
      · intro e he
        rcases List.mem_cons.mp he with rfl | he
        · exact ⟨owned, List.mem_append_right _ List.mem_cons_self, hk⟩
        · obtain ⟨o, ho, hid⟩ := h.origin e he
          exact ⟨o, List.mem_append_left _ ho, hid⟩

/-- Different joins want different ids. -/
def WantDifferent (previous : Schema) (owned : List OwnedJoin) : Prop :=
  owned.Pairwise fun o p => ∀ id, previous.kept? o = some id → previous.kept? p ≠ some id

/-- A join that keeps no id waits, with the tables that it is between. -/
def waits? (previous : Schema) (owned : OwnedJoin) : Option (JoinId × TableId × TableId) :=
  if (previous.kept? owned).isSome then none
  else owned.join.peer?.map fun target => (owned.join.id, owned.holder.id, target)

theorem Keeping.foldl {previous : Schema} {ids : JoinIds} {done rest : List OwnedJoin}
    (h : Keeping previous ids done) (ht : ∀ o ∈ rest, o.join.peer?.isSome = true)
    (hd : WantDifferent previous (done ++ rest)) :
    Keeping previous (rest.foldl (keep previous) ids) (done ++ rest) := by
  induction rest generalizing ids done with
  | nil =>
      rw [List.append_nil]
      exact h
  | cons owned rest ih =>
      rw [List.forall_mem_cons] at ht
      rw [List.append_cons] at hd ⊢
      -- the joins that are done come before this one
      refine ih (h.concat ht.1 fun o ho => ?_) ht.2 hd
      exact (List.pairwise_append.mp (List.pairwise_append.mp hd).1).2.2 o ho owned
        List.mem_cons_self

/-- **The joins that keep no id wait, one behind the other.** -/
theorem Keeping.waiting_foldl {previous : Schema} {ids : JoinIds} {done rest : List OwnedJoin}
    (h : Keeping previous ids done) (ht : ∀ o ∈ rest, o.join.peer?.isSome = true)
    (hd : WantDifferent previous (done ++ rest)) :
    (rest.foldl (keep previous) ids).waiting = ids.waiting ++ rest.filterMap (waits? previous) := by
  induction rest generalizing ids done with
  | nil => simp
  | cons owned rest ih =>
      rw [List.forall_mem_cons] at ht
      rw [List.append_cons] at hd
      have hwanted : ∀ o ∈ done, ∀ id, previous.kept? o = some id → previous.kept? owned ≠ some id :=
        fun o ho => (List.pairwise_append.mp (List.pairwise_append.mp hd).1).2.2 o ho owned
          List.mem_cons_self
      obtain ⟨target, htarget⟩ := Option.isSome_iff_exists.mp ht.1
      rw [List.foldl_cons, ih (h.concat ht.1 hwanted) ht.2 hd, keep_eq ids htarget,
        List.filterMap_cons, waits?]
      cases hk : previous.kept? owned with
      | none => simp [htarget]
      | some id =>
          have hfree : id ∉ ids.used := h.free fun o ho hid => hwanted o ho id hid hk
          simp [hfree]

/-- A join that waits gets an id that no other has. -/
theorem Sound.assign {ids : JoinIds} {done : List JoinId} {first : JoinId × TableId × TableId}
    {rest : List (JoinId × TableId × TableId)}
    (h : Sound { ids with waiting := first :: rest } done) :
    Sound { ids.assign first with waiting := rest } done := by
  refine ⟨?_, ?_, ?_⟩
  · exact congrArg (List.cons _) h.used
  · exact List.nodup_cons.mpr ⟨firstUnused_not_mem (JoinId.nth_injective _ _) 0, h.nodup⟩
  · refine List.Perm.trans ?_ h.keys
    exact List.perm_middle.symm

theorem Sound.foldl {ids : JoinIds} {done : List JoinId} {waiting : List (JoinId × TableId × TableId)}
    (h : Sound { ids with waiting := waiting } done) :
    Sound { waiting.foldl JoinIds.assign ids with waiting := [] } done := by
  induction waiting generalizing ids with
  | nil => exact h
  | cons first rest ih => exact ih h.assign

/-- What has been given stays given. -/
theorem subset_foldl_assign (ids : JoinIds) (waiting : List (JoinId × TableId × TableId)) :
    ids.assigned ⊆ (waiting.foldl assign ids).assigned ∧ ids.used ⊆ (waiting.foldl assign ids).used := by
  induction waiting generalizing ids with
  | nil => exact ⟨List.Subset.refl _, List.Subset.refl _⟩
  | cons first rest ih =>
      obtain ⟨hassigned, hused⟩ := ih (ids.assign first)
      exact ⟨fun e he => hassigned (List.mem_cons_of_mem _ he),
        fun id hid => hused (List.mem_cons_of_mem _ hid)⟩

/-- A join that waits gets an id between its tables. -/
theorem nth_mem_assigned {ids : JoinIds} {waiting : List (JoinId × TableId × TableId)}
    {join : JoinId} {source target : TableId} (h : (join, source, target) ∈ waiting) :
    ∃ n, (join, .nth source target n) ∈ (waiting.foldl assign ids).assigned := by
  induction waiting generalizing ids with
  | nil => cases h
  | cons first rest ih =>
      rcases List.mem_cons.mp h with rfl | h
      · exact ⟨_, (subset_foldl_assign _ rest).1 List.mem_cons_self⟩
      · exact ih h

/-- **As many joins as wait between two tables, so many ids between these are given**, from the
first one on. -/
theorem nth_mem_used {ids : JoinIds} {waiting : List (JoinId × TableId × TableId)}
    {source target : TableId} {k n : Nat} (hk : ∀ m < k, .nth source target m ∈ ids.used)
    (hn : n < k + (waiting.map (·.2)).count (source, target)) :
    .nth source target n ∈ (waiting.foldl assign ids).used := by
  induction waiting generalizing ids k with
  | nil => exact hk n hn
  | cons first rest ih =>
      rw [List.map_cons, List.count_cons] at hn
      by_cases hfirst : first.2 = (source, target)
      · rw [if_pos (by simpa using hfirst)] at hn
        refine ih (k := k + 1) (fun m hm => ?_) (by omega)
        -- the new id is the next one, unless that is used already
        show _ ∈ _ :: ids.used
        rw [hfirst]
        by_cases hlt : m < k
        · exact List.mem_cons_of_mem _ (hk m hlt)
        obtain rfl : m = k := by omega
        rcases Nat.lt_trichotomy m (firstUnused ids.used (.nth source target) 0) with h | h | h
        · exact List.mem_cons_of_mem _ (mem_of_lt_firstUnused (Nat.zero_le m) h)
        · exact h ▸ List.mem_cons_self
        · exact absurd (hk _ h) (firstUnused_not_mem (JoinId.nth_injective _ _) 0)
      · rw [if_neg (by simpa using hfirst)] at hn
        exact ih (fun m hm => List.mem_cons_of_mem _ (hk m hm)) hn

/-- What is known of the final ids of joins. -/
structure Settled (previous next : Schema) (ids : JoinIds) : Prop where
  distinct : ∀ o ∈ next.owningJoins, ∀ p ∈ next.owningJoins,
    ids.final o.join.id = ids.final p.join.id → o.join.id = p.join.id
  kept : ∀ o ∈ next.owningJoins, ∀ id, previous.kept? o = some id → ids.final o.join.id = id
  waited : ∀ o ∈ next.owningJoins, ∀ target, previous.kept? o = none →
    o.join.peer? = some target → ∃ n, ids.final o.join.id = .nth o.holder.id target n
  taken : ∀ source target n,
    n < ((next.owningJoins.filterMap (waits? previous)).map (·.2)).count (source, target) →
    ∃ o ∈ next.owningJoins, ids.final o.join.id = .nth source target n

/-- **Joins that had an id have it again, the others have the first ids between their tables, and
different joins have different ids.** -/
theorem settle_spec {previous next : Schema}
    (hids : (next.owningJoins.map (·.join.id)).Nodup)
    (ht : ∀ o ∈ next.owningJoins, o.join.peer?.isSome = true)
    (hd : WantDifferent previous next.owningJoins) :
    Settled previous next (settle previous next) := by
  have hkept : Keeping previous (next.owningJoins.foldl (keep previous) ⟨[], [], []⟩)
      next.owningJoins := (keeping_nil previous).foldl ht hd
  have hwaiting := (keeping_nil previous).waiting_foldl ht hd
  rw [List.nil_append] at hwaiting
  have hsound := hkept.sound.foldl
  have hstill := (subset_foldl_assign (next.owningJoins.foldl (keep previous) ⟨[], [], []⟩)
    (next.owningJoins.foldl (keep previous) ⟨[], [], []⟩).waiting).1
  change Sound { settle previous next with waiting := [] } _ at hsound
  have hkeys : ((settle previous next).assigned.map (·.1)).Perm
      (next.owningJoins.map (·.join.id)) := by
    have := hsound.keys
    rwa [List.map_nil, List.append_nil] at this
  -- nothing waits any more, so every join is in the list, under an id of its own
  have hvalues : ((settle previous next).assigned.map (·.2)).Nodup := hsound.used ▸ hsound.nodup
  have hfinal : ∀ e ∈ (settle previous next).assigned,
      (settle previous next).final e.1 = e.2 := by
    intro e he
    rw [final, lookup_of_mem (hkeys.nodup_iff.mpr hids) he, Option.getD_some]
  have hassigned : ∀ o ∈ next.owningJoins,
      ∃ id, (o.join.id, id) ∈ (settle previous next).assigned := by
    intro o ho
    obtain ⟨e, he, hid⟩ := List.mem_map.mp (hkeys.mem_iff.mpr (List.mem_map.mpr ⟨o, ho, rfl⟩))
    exact ⟨e.2, hid ▸ he⟩
  refine ⟨fun o ho p hp he => ?_, fun o ho id hid => ?_, fun o ho target hnone hpeer => ?_,
    fun source target n hn => ?_⟩
  · obtain ⟨a, ha⟩ := hassigned o ho
    obtain ⟨b, hb⟩ := hassigned p hp
    rw [hfinal _ ha, hfinal _ hb] at he
    exact congrArg Prod.fst (eq_of_key_eq hvalues ha hb he)
  · exact hfinal _ (hstill (hkept.kept o ho id hid))
  · have hwaits : waits? previous o = some (o.join.id, o.holder.id, target) := by
      simp [waits?, hnone, hpeer]
    obtain ⟨n, hn⟩ := nth_mem_assigned (hwaiting ▸ List.mem_filterMap.mpr ⟨o, ho, hwaits⟩)
    exact ⟨n, hfinal _ hn⟩
  · have hmem : JoinId.nth source target n ∈ (settle previous next).used :=
      nth_mem_used (k := 0) (fun m hm => by omega) (by rw [hwaiting]; omega)
    rw [show (settle previous next).used = _ from hsound.used] at hmem
    obtain ⟨e, he, hid⟩ := List.mem_map.mp hmem
    obtain ⟨o, ho, hoid⟩ := List.mem_map.mp (hkeys.mem_iff.mp (List.mem_map.mpr ⟨e, he, rfl⟩))
    exact ⟨o, ho, by rw [hoid, hfinal e he, hid]⟩

end JoinIds

end ErModel
