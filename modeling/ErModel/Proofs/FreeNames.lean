import ErModel.Proofs.JoinIds
import ErModel.Schema.Basic

/-!
# Searches for something unused

A name that is taken is followed by numbers from 2 on until it is new, and an id of a join by numbers
from 0 on. Nothing bounds the numbers, and still every search ends, at the least number that will do.
For names the bound can be told exactly: the name that is taken stands in the way of no number, so
there is always a number that is at most one more than there are names. This is why a search never
comes to the end of the range that it looks at, where it would have to be content with what is there.
-/

namespace ErModel

/-- The name that a search is to find: the one that is wanted, if it is not in use, and otherwise
the wanted one with the least number from 2 on that makes it new. -/
structure FirstFree (used : List String) (base name : String) : Prop where
  unused : name ∉ used
  wanted : base ∉ used → name = base
  numbered : base ∈ used → ∃ n, 2 ≤ n ∧ n ≤ used.length + 1 ∧ name = base ++ toString n ∧
    ∀ m, 2 ≤ m → m < n → base ++ toString m ∈ used

/-- **The search for a name finds it**, before it comes to the number with which it would give up. -/
theorem freeName_firstFree (used : List String) (base : String) :
    FirstFree used base (freeName used base) := by
  refine ⟨freeName_not_mem used base, fun hfree => if_neg hfree, fun htaken => ?_⟩
  refine ⟨firstUnused used (fun n => base ++ toString n) 2, le_firstUnused, ?_, if_pos htaken,
    fun m hs hm => mem_of_lt_firstUnused hs hm⟩
  -- the wanted name itself is no candidate, so one of the used names is in nobody's way
  have hbound : firstUnused used (fun n => base ++ toString n) 2 ≤
      2 + (used.filter (· ≠ base)).length :=
    firstUnused_le (numbered_injective base) fun n hn => List.mem_filter.mpr ⟨hn, by simp⟩
  have hfewer : (used.filter (· ≠ base)).length < used.length :=
    List.length_filter_lt_length_iff_exists.mpr ⟨base, htaken, by simp⟩
  omega

/-! ## Ids of joins -/

namespace JoinIds

/-- **A join that waits gets the first id between its tables that is not in use.** -/
theorem assign_first (ids : JoinIds) (join : JoinId) (source target : TableId) :
    ∃ n ≤ ids.used.length, .nth source target n ∉ ids.used ∧
      (∀ m < n, .nth source target m ∈ ids.used) ∧
      ids.assign (join, source, target) =
        { ids with
          assigned := (join, .nth source target n) :: ids.assigned
          used := .nth source target n :: ids.used } := by
  have hinj := JoinId.nth_injective source target
  refine ⟨firstUnused ids.used (.nth source target) 0, ?_, firstUnused_not_mem hinj 0,
    fun m hm => mem_of_lt_firstUnused (Nat.zero_le m) hm, rfl⟩
  have hbound : firstUnused ids.used (.nth source target) 0 ≤ 0 + ids.used.length :=
    firstUnused_le hinj fun _ => id
  omega

theorem nodup_keep {ids : JoinIds} (h : ids.used.Nodup) (previous : Schema) (owned : OwnedJoin) :
    (keep previous ids owned).used.Nodup := by
  unfold keep
  split
  · exact h
  · split
    · split
      · exact h
      · rename_i hfree
        exact List.nodup_cons.mpr ⟨hfree, h⟩
    · exact h

theorem nodup_assign {ids : JoinIds} (h : ids.used.Nodup) (first : JoinId × TableId × TableId) :
    (ids.assign first).used.Nodup := by
  obtain ⟨n, -, hfree, -, hassign⟩ := ids.assign_first first.1 first.2.1 first.2.2
  rw [hassign]
  exact List.nodup_cons.mpr ⟨hfree, h⟩

/-- **No id is given twice**, whatever the schemas are. -/
theorem nodup_settle (previous next : Schema) : (settle previous next).used.Nodup := by
  have hkept : (next.owningJoins.foldl (keep previous) ⟨[], [], []⟩).used.Nodup :=
    List.foldlRecOn (motive := fun ids : JoinIds => ids.used.Nodup) next.owningJoins _
      List.nodup_nil fun _ h owned _ => nodup_keep h previous owned
  exact List.foldlRecOn (motive := fun ids : JoinIds => ids.used.Nodup) _ _ hkept
    fun _ h first _ => nodup_assign h first

end JoinIds

/-! ## All searches -/

/-- **Every search ends with the least number that will do.** The names of tables and columns that
are looked for are found, with a number that is at most one more than there are names. A join gets
the first id between its tables that was not used before, so that in the end no id is given twice. -/
theorem searches_find_first :
    (∀ (schema : Schema) (base : String),
      FirstFree (schema.tables.map (·.name)) base (schema.freeTableName base)) ∧
    (∀ (table : Table) (base : String),
      FirstFree (table.columns.map (·.name)) base (table.freeColumnName base)) ∧
    (∀ (ids : JoinIds) (join : JoinId) (source target : TableId),
      ∃ n ≤ ids.used.length, .nth source target n ∉ ids.used ∧
        (∀ m < n, .nth source target m ∈ ids.used) ∧
        ids.assign (join, source, target) =
          { ids with
            assigned := (join, .nth source target n) :: ids.assigned
            used := .nth source target n :: ids.used }) ∧
    ∀ previous next : Schema, (JoinIds.settle previous next).used.Nodup :=
  ⟨fun schema base => freeName_firstFree (schema.tables.map (·.name)) base,
    fun table base => freeName_firstFree (table.columns.map (·.name)) base,
    JoinIds.assign_first, JoinIds.nodup_settle⟩

/-- With two copies there, the next one is the third. -/
theorem copies_numbered :
    let schema : Schema := ⟨[.seeded ⟨"a"⟩ ⟨"a1"⟩ "User_copy" .uuid,
      .seeded ⟨"b"⟩ ⟨"b1"⟩ "User_copy2" .uuid]⟩
    schema.freeTableName "User_copy" = "User_copy3" ∧
      FirstFree ["User_copy", "User_copy2"] "User_copy" (schema.freeTableName "User_copy") := by
  intro schema
  exact ⟨by decide +kernel, searches_find_first.1 schema "User_copy"⟩

end ErModel
