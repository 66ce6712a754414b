import ErModel.Proofs.Common
import ErModel.Schema.Validity

/-!
# What a valid schema is

`Schema.validate` walks a schema and stops at the first violation. Here the same is said without an
order: a table is sound if its columns have ids of their own, know their table, have no fault and
have one key among them; a schema is valid if its tables are sound and told apart by id and by name,
if every join has one owning record that refers to what exists, and if every mirror agrees with the
owning record of its join and is the only one.
-/

namespace ErModel

/-- What has to hold of a table on its own. -/
structure Table.Sound (table : Table) : Prop where
  columnIds : (table.columns.map (·.id)).Nodup
  home : ∀ c ∈ table.columns, c.tableId = table.id
  faultless : ∀ c ∈ table.columns, c.fault? = none
  key : table.columns = [] ∨
    ∃ key, table.columns.filter (·.primaryKey) = [key] ∧ table.primaryKey = some key.id

/-- What a join refers to exists. -/
def Schema.HasTarget (schema : Schema) (join : Join) : Prop :=
  ∀ target, join.target = some target → ∃ peer, schema.table? target.table = some peer ∧
    ∀ column, target.column = some column → (peer.column? column).isSome

/-- What has to hold of an owning record. -/
structure Schema.OwnerSound (schema : Schema) (owned : OwnedJoin) : Prop where
  source : owned.join.source = owned.holder.id
  target : schema.HasTarget owned.join
  fits : owned.isConfigured = true → owned.join.fitsForeignKey = true

/-- A mirror has a record among `owners` to agree with. -/
def Join.MirrorsOneOf (mirror : Join) (owners : List Join) : Prop :=
  ∃ owner ∈ owners, owner.id = mirror.id ∧ mirror.source = owner.source ∧
    owner.agreesWith mirror = true

/-- Everything that `validate` checks. -/
structure Schema.Valid (schema : Schema) : Prop where
  ids : (schema.tables.map (·.id)).Nodup
  names : (schema.tables.map (·.name)).Nodup
  tables : ∀ t ∈ schema.tables, t.Sound
  ownerIds : (schema.owningJoins.map (·.join.id)).Nodup
  owners : ∀ o ∈ schema.owningJoins, schema.OwnerSound o
  mirrorIds : (schema.allMirrors.map (·.2.id)).Nodup
  mirrors : ∀ m ∈ schema.allMirrors, m.2.MirrorsOneOf (schema.owningJoins.map (·.join))

/-! ## Tables -/

theorem Column.fault?_eq_none {column : Column} : column.fault? = none ↔
    (column.autoIncrement = true → column.primaryKey = true ∧ column.dataType.isNumber = true) ∧
      (column.nullable = true → column.unique = false ∧ column.primaryKey = false) ∧
        column.dataType.hasLooseScale = false := by
  unfold fault?
  cases column.autoIncrement <;> cases column.nullable <;> cases column.primaryKey <;>
    cases column.unique <;> cases column.dataType.isNumber <;> simp

theorem checkColumns_eq_ok {table : Table} {seen : List ColumnId} {columns : List Column} :
    checkColumns table seen columns = .ok () ↔ NewTo (·.id) seen columns ∧
      ∀ c ∈ columns, c.tableId = table.id ∧ c.fault? = none := by
  induction columns generalizing seen with
  | nil => simp [checkColumns, NewTo]
  | cons c rest ih =>
      rw [checkColumns, newTo_cons, List.forall_mem_cons]
      by_cases hseen : c.id ∈ seen
      · simp [hseen]
      by_cases hhome : c.tableId = table.id
      · cases hf : c.fault? with
        | some fault => simp [hseen, hhome]
        | none => simp [hseen, hhome, ih]
      · simp [hseen, hhome]

theorem checkKey_eq_ok {table : Table} :
    checkKey table = .ok () ↔ table.columns = [] ∨
      ∃ key, table.columns.filter (·.primaryKey) = [key] ∧ table.primaryKey = some key.id := by
  unfold checkKey
  by_cases hc : table.columns = []
  · simp [hc]
  · rw [if_neg (by simpa using hc)]
    split
    · rename_i key hk
      by_cases he : table.primaryKey = some key.id
      · simp [hk, he]
      · simp [hc, hk, he]
    · rename_i keys hk
      simp only [reduceCtorEq, hc, false_or, false_iff, not_exists, not_and]
      intro key h
      exact absurd h (hk key)

theorem Table.check_eq_ok {table : Table} : table.check = .ok () ↔ table.Sound := by
  rw [Table.check, check_bind_eq_ok]
  simp only [checkColumns_eq_ok, checkKey_eq_ok, newTo_nil]
  constructor
  · rintro ⟨⟨hn, h⟩, hk⟩
    exact ⟨hn, fun c hc => (h c hc).1, fun c hc => (h c hc).2, hk⟩
  · intro h
    exact ⟨⟨h.columnIds, fun c hc => ⟨h.home c hc, h.faultless c hc⟩⟩, h.key⟩

theorem checkTables_eq_ok {ids : List TableId} {names : List String} {tables : List Table} :
    checkTables ids names tables = .ok () ↔
      NewTo (·.id) ids tables ∧ NewTo (·.name) names tables ∧ ∀ t ∈ tables, t.Sound := by
  induction tables generalizing ids names with
  | nil => simp [checkTables, NewTo]
  | cons t rest ih =>
      rw [checkTables, newTo_cons, newTo_cons, List.forall_mem_cons]
      by_cases hid : t.id ∈ ids
      · simp [hid]
      by_cases hname : t.name ∈ names
      · simp [hid, hname]
      rw [if_neg hid, if_neg hname, check_bind_eq_ok]
      simp only [Table.check_eq_ok, ih, hid, hname, not_false_eq_true, true_and]
      constructor
      · rintro ⟨hs, hi, hn, h⟩
        exact ⟨hi, hn, hs, h⟩
      · rintro ⟨hi, hn, hs, h⟩
        exact ⟨hs, hi, hn, h⟩

/-! ## Owning records -/

theorem Schema.checkTarget_eq_ok {schema : Schema} {join : Join} :
    schema.checkTarget join = .ok () ↔ schema.HasTarget join := by
  unfold Schema.checkTarget Schema.HasTarget
  cases ht : join.target with
  | none => simp
  | some target =>
      cases hp : schema.table? target.table with
      | none => simp [hp]
      | some peer =>
          cases hc : target.column with
          | none => simp [hp, hc]
          | some column => by_cases h : (peer.column? column).isSome <;> simp [hp, hc, h]

theorem Schema.checkOwner_eq_ok {schema : Schema} {owned : OwnedJoin} :
    schema.checkOwner owned = .ok () ↔ schema.OwnerSound owned := by
  unfold Schema.checkOwner
  by_cases hs : owned.join.source = owned.holder.id
  · rw [if_neg (by simpa using hs)]
    simp only [check_bind_eq_ok, checkTarget_eq_ok]
    by_cases hf : (owned.isConfigured && !owned.join.fitsForeignKey) = true
    · rw [if_pos hf]
      simp only [throw_ne_ok, and_false, false_iff]
      intro h
      have hfits := h.fits (by simp_all)
      simp [hfits] at hf
    · rw [if_neg hf]
      simp only [pure_eq_ok, and_true]
      exact ⟨fun h => ⟨hs, h, by simpa using hf⟩, fun h => h.target⟩
  · rw [if_pos (by simpa using hs), check_bind_eq_ok]
    simp only [throw_ne_ok, false_and, false_iff]
    exact fun h => hs h.source

theorem Schema.checkOwners_eq_ok {schema : Schema} {seen : List JoinId} {owned : List OwnedJoin} :
    schema.checkOwners seen owned = .ok () ↔
      NewTo (·.join.id) seen owned ∧ ∀ o ∈ owned, schema.OwnerSound o := by
  induction owned generalizing seen with
  | nil => simp [checkOwners, NewTo]
  | cons o rest ih =>
      rw [checkOwners, newTo_cons, List.forall_mem_cons]
      by_cases hseen : o.join.id ∈ seen
      · simp [hseen]
      rw [if_neg hseen, check_bind_eq_ok]
      simp only [checkOwner_eq_ok, ih, hseen, not_false_eq_true, true_and]
      constructor
      · rintro ⟨ho, hn, h⟩
        exact ⟨hn, ho, h⟩
      · rintro ⟨hn, ho, h⟩
        exact ⟨ho, hn, h⟩

/-! ## Mirrors -/

theorem checkMirrors_eq_ok {owners : List Join} (ho : (owners.map (·.id)).Nodup)
    {seen : List JoinId} {mirrors : List (Table × Join)} :
    checkMirrors owners seen mirrors = .ok () ↔
      NewTo (·.2.id) seen mirrors ∧ ∀ m ∈ mirrors, m.2.MirrorsOneOf owners := by
  induction mirrors generalizing seen with
  | nil => simp [checkMirrors, NewTo]
  | cons m rest ih =>
      obtain ⟨t, m⟩ := m
      rw [checkMirrors, newTo_cons, List.forall_mem_cons]
      cases hf : owners.find? (·.id = m.id) with
      | none =>
          simp only [List.find?_eq_none, decide_eq_true_eq] at hf
          simp only [reduceCtorEq, false_iff, not_and]
          rintro - ⟨owner, hmem, hid, -⟩
          exact absurd hid (hf owner hmem)
      | some owner =>
          have hmem := List.mem_of_find?_eq_some hf
          have hid : owner.id = m.id := by simpa using List.find?_some hf
          by_cases hseen : m.id ∈ seen
          · simp [hseen]
          by_cases hagree : m.source = owner.source ∧ owner.agreesWith m = true
          · have hm : m.MirrorsOneOf owners := ⟨owner, hmem, hid, hagree⟩
            simp only [hseen, if_false, hagree, ne_eq, not_true_eq_false, decide_false,
              Bool.not_true, Bool.or_self, Bool.false_eq_true, ih, hm, not_false_eq_true, true_and]
          · have hm : ¬ m.MirrorsOneOf owners := by
              rintro ⟨other, hother, hoid, hag⟩
              -- ids tell owning records apart, so the one found is the one that would agree
              have : other = owner := eq_of_key_eq ho hother hmem (by rw [hoid, hid])
              exact hagree (this ▸ hag)
            have hbad : (decide (m.source ≠ owner.source) || !owner.agreesWith m) = true := by
              by_cases hs : m.source = owner.source <;> simp_all
            simp only [hseen, if_false, hbad, if_true, reduceCtorEq, hm, not_false_eq_true,
              true_and, false_and, and_false]

/-- **Checking decides validity.** -/
theorem Schema.validate_iff {schema : Schema} : schema.validate = .ok () ↔ schema.Valid := by
  have hids : schema.owningJoins.map (·.join.id) =
      (schema.owningJoins.map (·.join)).map (·.id) := by simp
  simp only [Schema.validate, check_bind_eq_ok, checkTables_eq_ok, checkOwners_eq_ok,
    newTo_nil]
  constructor
  · rintro ⟨⟨hi, hn, ht⟩, ⟨hon, ho⟩, hm⟩
    obtain ⟨hmn, hm⟩ := (checkMirrors_eq_ok (hids ▸ hon)).mp hm
    exact ⟨hi, hn, ht, hon, ho, newTo_nil.mp hmn, hm⟩
  · intro h
    exact ⟨⟨h.ids, h.names, h.tables⟩, ⟨h.ownerIds, h.owners⟩,
      (checkMirrors_eq_ok (hids ▸ h.ownerIds)).mpr ⟨newTo_nil.mpr h.mirrorIds, h.mirrors⟩⟩

end ErModel
