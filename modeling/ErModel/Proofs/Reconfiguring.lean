import ErModel.Proofs.ForeignKeys

/-!
# Configuring a join again

A choice that has been carried out is carried out once more without a change, as long as it speaks
of the table that the join refers to by now. That is so for every join that keeps its direction. The
one that does not is a pending one-to-many join: its column goes to the table that was chosen and
refers to the table that declared it. By the second time that column is found, so the direction is
not turned round any more, and the table that was chosen is taken for the one to refer to. It is the
table of the column itself.
-/

namespace ErModel

namespace JoinConfig

variable {config : JoinConfig} {t u : Table} {key : Column}

/-- What the choice says of a column of the table that the join is to refer to: the column is the one
that is named, or it is a key where none is. -/
def picks (config : JoinConfig) (table : TableId) (column : Column) : Bool :=
  if table = config.target.table && config.target.column.isSome then
    some column.id = config.target.column
  else column.isKey

theorem key?_eq_find? (config : JoinConfig) (t : Table) :
    config.key? t = t.columns.find? (config.picks t.id) := by
  unfold key? picks
  split
  · rename_i h
    rw [Bool.and_eq_true] at h
    obtain ⟨c, hc⟩ := Option.isSome_iff_exists.mp h.2
    simp only [hc, Option.bind_some, Option.some.injEq, Table.column?]
  · rfl

theorem picks_congr {table : TableId} {c d : Column} (hid : c.id = d.id) (hkey : c.isKey = d.isKey) :
    config.picks table c = config.picks table d := by
  rw [picks, picks, hid, hkey]

/-- Columns that keep their ids and stay the keys that they were offer what they offered. -/
theorem key?_map {f : Column → Column} (hid : u.id = t.id) (hcolumns : u.columns = t.columns.map f)
    (hids : ∀ c, (f c).id = c.id) (hkeys : ∀ c, (f c).isKey = c.isKey)
    (h : config.key? t = some key) : config.key? u = some (f key) := by
  rw [key?_eq_find?] at h ⊢
  have hpicks : config.picks t.id ∘ f = config.picks t.id :=
    funext fun c => picks_congr (hids c) (hkeys c)
  rw [hid, hcolumns, List.find?_map, hpicks, h]
  rfl

/-- Columns behind the others do not matter. -/
theorem key?_append {more : List Column} (hid : u.id = t.id)
    (hcolumns : u.columns = t.columns ++ more) (h : config.key? t = some key) :
    config.key? u = some key := by
  rw [key?_eq_find?] at h ⊢
  rw [hid, hcolumns, List.find?_append, h]
  rfl

/-- The column that is named is on the table that was chosen. -/
theorem isSome_column?_of_key? (hid : t.id = config.target.table) (h : config.key? t = some key)
    {c : ColumnId} (hc : config.target.column = some c) : (t.column? c).isSome = true := by
  rw [key?, if_pos (by simp [hid, hc]), hc] at h
  exact Option.isSome_iff_exists.mpr ⟨key, h⟩

end JoinConfig

/-- The records of the join are put where they are already. -/
theorem Table.rejoined_again (t : Table) (record : Join) (columns columns' : List Column) :
    (t.rejoined record.id [record] columns).rejoined record.id [record] columns' =
      t.rejoined record.id [record] columns' := by
  have hmade : (record.mirrorsOn t.id).filter (·.id ≠ record.id) = [] :=
    List.filter_eq_nil_iff.mpr fun j hj => by
      obtain ⟨-, rfl⟩ := Join.mem_mirrorsOn.mp hj
      simp
  simp only [rejoined, List.flatMap_singleton, List.filter_append, hmade, List.append_nil,
    List.filter_filter, Bool.and_self]

namespace Schema

variable {schema next : Schema} {join : JoinId} {config : JoinConfig} {record : Join}
  {H R : Table} {k r : Column}

/-! ## Where a foreign key is found -/

namespace ForeignKeyAt

theorem mem_owningJoins (h : next.ForeignKeyAt record H k R r) :
    ⟨H, some k, record⟩ ∈ next.owningJoins :=
  (List.mem_filter.mp (h.owner ▸ List.mem_singleton_self _ :
    (⟨H, some k, record⟩ : OwnedJoin) ∈ next.owningJoins.filter (·.join.id = record.id))).1

theorem carries (h : next.ForeignKeyAt record H k R r) : k.foreignKey = some record := by
  obtain ⟨-, ⟨c, -, hc, hf⟩ | ⟨hnone, -⟩⟩ := Schema.mem_owningJoins h.mem_owningJoins
  · exact Option.some.inj hc ▸ hf
  · cases hnone

theorem foreignKey? (h : next.ForeignKeyAt record H k R r) (hv : next.Valid) :
    next.foreignKey? record.id = some (H, k) :=
  foreignKey?_of_mem hv h.holder.1 h.holder.2 h.carries

/-- A join has one foreign key. -/
theorem unique {record' : Join} {H' R' : Table} {k' r' : Column}
    (h : next.ForeignKeyAt record H k R r) (h' : next.ForeignKeyAt record' H' k' R' r')
    (hid : record'.id = record.id) : record' = record := by
  have howner := h'.owner
  rw [hid, h.owner, List.singleton_inj, OwnedJoin.mk.injEq] at howner
  exact howner.2.2.symm

end ForeignKeyAt

/-! ## What has been carried out -/

/-- **A choice that the schema shows already changes nothing.** The join has a foreign key, and its
record is what would be made of the choice. -/
theorem configureJoin_of_foreignKeyAt (hv : next.Valid) (h : next.ForeignKeyAt record H k R r)
    (hjoins : ∀ t ∈ next.tables, t.rejoined record.id [record] t.columns = t)
    (hrecord : config.record record.id H.id R.id r.id = record)
    (hchosen : R.id = config.target.table) (hkey : config.key? R = some r)
    (hkind : config.kind ≠ .manyToMany) (ids : IdSupply) :
    next.configureJoin ids record.id config = .ok (next, .foreignKey H.id k.id) := by
  have hfound := h.foreignKey? hv
  have hR : next.table? R.id = some R := table?_of_mem hv.ids h.referenced.1
  have hends : next.configuredEnds record.id config H.id = (H.id, R.id) := by
    rw [configuredEnds, hfound, if_neg (by simp), hchosen]
  -- the column has its record and its type already
  have hcolumns : (H.setForeignKey k.id r.dataType record).columns = H.columns := by
    refine (modifyFirst_eq_map (hv.tables H h.holder.1).columnIds k.id).trans
      (map_key_eq_self (f := fun c => { c with dataType := r.dataType, foreignKey := some record })
        (hv.tables H h.holder.1).columnIds h.holder.2 ?_)
    rw [← h.dataType, ← h.carries]
  have hbuilt : (next.withForeignKey ids record.id config H.id R r).1 = next := by
    rw [withForeignKey, hrecord, placeForeignKey_eq h.ends.2, hfound]
    refine congrArg Schema.mk ((tables_onColumn hv.ids h.ends.2 k.id r.dataType).trans ?_)
    refine Eq.trans (List.map_congr_left fun t ht => ?_) (List.map_id' next.tables)
    by_cases he : t.id = record.source
    · obtain rfl : t = H := eq_of_key_eq hv.ids ht h.holder.1 (he.trans h.ends.1)
      rw [if_pos he, hcolumns, hjoins t ht]
    · rw [if_neg he, hjoins t ht]
  refine (configureJoin_iff (Or.inl ⟨_, rfl⟩)).mpr ⟨R, H.id, hchosen ▸ hR,
    fun c hc => JoinConfig.isSome_column?_of_key? hchosen hkey hc, ?_,
    Or.inr ⟨hkind, H.id, R, r, hends, hR, hkey, ?_⟩⟩
  · rw [declaring?, hfound]
    rfl
  · rw [hbuilt, settle_of_valid hv, column_withForeignKey, hfound]
    rfl

namespace Configures

/-- The tables hold what they are to hold of the join. -/
theorem rejoined (h : schema.Configures next join config H k R r) :
    ∀ t ∈ next.tables, t.rejoined join [config.record join H.id R.id r.id] t.columns = t := by
  intro t ht
  rw [h.frame] at ht
  obtain ⟨old, -, rfl⟩ := List.mem_map.mp ht
  exact Table.rejoined_again old (config.record join H.id R.id r.id) _ _

/-- The table that the join refers to goes on to offer the column that was chosen. -/
theorem key?_eq (h : schema.Configures next join config H k R r) (hv : schema.Valid)
    (hnv : next.Valid) (hdeclared : (schema.declaring? join).isSome = true) {referenced : Table}
    {key : Column} (hreferenced : schema.table? R.id = some referenced)
    (hkey : config.key? referenced = some key) (hid : r.id = key.id) : config.key? R = some r := by
  obtain ⟨hmem, hsame⟩ := mem_of_table? hreferenced
  have hR := h.shape.referenced
  have hcolumns : R.columns = if referenced.id = H.id then H.columns else referenced.columns := by
    have hout := hR.1
    rw [h.frame] at hout
    obtain ⟨old, hold, hrejoined⟩ := List.mem_map.mp hout
    have hold' : old = referenced := by
      refine eq_of_key_eq hv.ids hold hmem (Eq.trans ?_ hsame.symm)
      rw [← hrejoined]
      rfl
    rw [← hrejoined, hold']
    rfl
  -- it is enough that a column of this id is offered
  suffices hoffered : ∃ c, config.key? R = some c ∧ c.id = key.id by
    obtain ⟨c, hc, hcid⟩ := hoffered
    rw [hc, eq_of_key_eq (hnv.tables R hR.1).columnIds (mem_of_key? hc) hR.2 (hcid.trans hid.symm)]
  by_cases he : referenced.id = H.id
  · rw [if_pos he] at hcolumns
    obtain ⟨declaring, hdeclaring⟩ := Option.isSome_iff_exists.mp hdeclared
    rcases declaring?_eq_some hdeclaring with ⟨t, c, hf, -⟩ | ⟨-, t, pending, hp, -⟩
    · -- the column that the join has is changed in its place
      obtain ⟨hH, -, -, hkept⟩ := h.kept t c hf
      have ht : t = referenced :=
        eq_of_key_eq hv.ids (foreignKey?_eq_some hf).1 hmem (hH.symm.trans he.symm)
      rw [ht] at hkept
      let place (d : Column) : Column := if d.id = c.id then
        { d with dataType := r.dataType, foreignKey := k.foreignKey } else d
      have hids : ∀ d, (place d).id = d.id := fun d => by
        unfold place
        split <;> rfl
      have hkeys : ∀ d, (place d).isKey = d.isKey := fun d => by
        unfold place
        split <;> rfl
      exact ⟨_, JoinConfig.key?_map hsame.symm (hcolumns.trans hkept) hids hkeys hkey, hids key⟩
    · -- the new column stands behind the others
      obtain ⟨-, before, hbefore, hmade, -⟩ := h.made t pending hp
      rw [← he, hsame, hreferenced, Option.some.injEq] at hbefore
      exact ⟨key, JoinConfig.key?_append hsame.symm
        (hcolumns.trans (hbefore ▸ hmade)) hkey, rfl⟩
  · rw [if_neg he] at hcolumns
    exact ⟨key, JoinConfig.key?_append hsame.symm
      (hcolumns.trans (List.append_nil _).symm) hkey, rfl⟩

end Configures

/-! ## The same choice a second time -/

/-- A pending one-to-many join is turned round by its configuration: its column goes to a table that
is not the one that declared it, and refers to that one. -/
def TurnsRound (schema : Schema) (join : JoinId) (config : JoinConfig) : Prop :=
  config.kind = .oneToMany ∧
    ∃ t record, schema.pending? join = some (t, record) ∧ t.id ≠ config.target.table

namespace Configures

/-- The column of a join that has been turned round is on the table that was chosen. -/
theorem ends_of_turned (h : schema.Configures next join config H k R r)
    (hturned : schema.TurnsRound join config) :
    H.id = config.target.table ∧ R.id ≠ config.target.table := by
  obtain ⟨hkind, t, pending, hp, hne⟩ := hturned
  have hends := (h.made t pending hp).1
  rw [JoinConfig.ends, if_pos hkind, Prod.mk.injEq] at hends
  exact ⟨hends.1, hends.2.symm ▸ hne⟩

/-- Any other join refers to that table. -/
theorem refers_of_straight (h : schema.Configures next join config H k R r)
    (hdeclared : (schema.declaring? join).isSome = true)
    (hstraight : ¬ schema.TurnsRound join config) : R.id = config.target.table := by
  obtain ⟨declaring, hdeclaring⟩ := Option.isSome_iff_exists.mp hdeclared
  rcases declaring?_eq_some hdeclaring with ⟨t, c, hf, -⟩ | ⟨-, t, pending, hp, -⟩
  · exact (h.kept t c hf).2.2.1
  · have hends := (h.made t pending hp).1
    unfold JoinConfig.ends at hends
    split at hends
    · rename_i hkind
      rw [(Prod.mk.inj hends).2]
      exact not_not.mp fun hne => hstraight ⟨hkind, t, pending, hp, hne⟩
    · exact (Prod.mk.inj hends).2

/-- A choice that speaks of the table that the join refers to by now changes nothing any more. -/
theorem again (h : schema.Configures next join config H k R r) (hnv : next.Valid)
    {config' : JoinConfig} (hrecord : config'.record join H.id R.id r.id =
      config.record join H.id R.id r.id)
    (hchosen : R.id = config'.target.table) (hkey : config'.key? R = some r)
    (hkind : config'.kind ≠ .manyToMany) (ids : IdSupply) :
    next.configureJoin ids join config' = .ok (next, .foreignKey H.id k.id) :=
  configureJoin_of_foreignKeyAt hnv h.shape h.rejoined hrecord hchosen hkey hkind ids

end Configures

/-- What configuring a join has made of it, and the schema is valid again. -/
theorem configureJoin_configures (hv : schema.Valid) {ids : IdSupply} {done : Configured}
    (hkind : config.kind ≠ .manyToMany)
    (h : schema.configureJoin ids join config = .ok (next, done)) :
    ∃ H k R r, done = .foreignKey H.id k.id ∧ schema.Configures next join config H k R r ∧
      next.Valid ∧ (schema.declaring? join).isSome = true ∧ config.key? R = some r := by
  obtain ⟨declaring, hdeclaring, ⟨hmany, -⟩ | ⟨-, hnv, -⟩⟩ := configureJoin_eq_ok h
  · exact absurd hmany hkind
  have hdeclared : (schema.declaring? join).isSome = true := hdeclaring ▸ rfl
  cases done with
  | junction table =>
      obtain ⟨_, _, -, -, -, ⟨hmany, -⟩ | ⟨-, _, _, _, -, -, -, hbuilt⟩⟩ :=
        (configureJoin_iff (Or.inl ⟨_, rfl⟩)).mp h
      · exact absurd hmany hkind
      · exact Configured.noConfusion (settled_beside hbuilt).2.2
  | foreignKey id column =>
      obtain ⟨H, k, R, r, ⟨rfl, rfl⟩, hc, ⟨referenced, key, hreferenced, hkey, hr⟩, -⟩ :=
        configures_chosen hv h
      exact ⟨H, k, R, r, rfl, hc, hnv, hdeclared, hc.key?_eq hv hnv hdeclared hreferenced hkey hr⟩

/-- **The same choice a second time changes nothing, unless the first time has turned the join
round.** A join that has been turned round comes out as one of its column's table with itself, if
the second time succeeds at all. -/
theorem configureJoin_again_iff (hv : schema.validate = .ok ()) {ids : IdSupply}
    {done : Configured} (hkind : config.kind ≠ .manyToMany)
    (h : schema.configureJoin ids join config = .ok (next, done)) (ids' : IdSupply) :
    (next.configureJoin ids' join config = .ok (next, done) ↔ ¬ schema.TurnsRound join config) ∧
    (schema.TurnsRound join config → ∀ last done',
      next.configureJoin ids' join config = .ok (last, done') → done' = done ∧
        ∃ H k R r, done = .foreignKey H.id k.id ∧ last.ForeignKeyAt
          (config.record join H.id R.id r.id) H k R r ∧ R.id = H.id) := by
  have hv := validate_iff.mp hv
  obtain ⟨H, k, R, r, rfl, hc, hnv, hdeclared, hkey⟩ := configureJoin_configures hv hkind h
  have hfound : next.foreignKey? join = some (H, k) := hc.shape.foreignKey? hnv
  -- the second time the join keeps its column, and refers to the table that was chosen
  have hsecond : ∀ last done', next.configureJoin ids' join config = .ok (last, done') →
      done' = .foreignKey H.id k.id ∧ ∃ H' k' R' r', done' = .foreignKey H'.id k'.id ∧
        next.Configures last join config H' k' R' r' ∧ R'.id = config.target.table := by
    intro last done' h'
    obtain ⟨H', k', R', r', rfl, hc', -⟩ := configureJoin_configures hnv hkind h'
    obtain ⟨hH, hk, hR, -⟩ := hc'.kept H k hfound
    exact ⟨by rw [hH, hk], H', k', R', r', rfl, hc', hR⟩
  refine ⟨⟨fun h' hturned => ?_, fun hstraight => ?_⟩, fun hturned last done' h' => ?_⟩
  · obtain ⟨-, H', k', R', r', -, hc', hR⟩ := hsecond next _ h'
    have hsame := hc.shape.unique hc'.shape rfl
    have htarget : R'.id = R.id := congrArg JoinTarget.table
      (Option.some.inj (congrArg Join.target hsame))
    exact (hc.ends_of_turned hturned).2 (htarget.symm.trans hR)
  · exact hc.again hnv rfl (hc.refers_of_straight hdeclared hstraight) hkey hkind ids'
  · obtain ⟨hdone, H', k', R', r', hdone', hc', hR⟩ := hsecond last done' h'
    refine ⟨hdone, H', k', R', r', hdone.symm.trans hdone', hc'.shape, hR.trans ?_⟩
    rw [hdone] at hdone'
    exact (hc.ends_of_turned hturned).1.symm.trans (Configured.foreignKey.inj hdone').1

/-- Users that are to have liked one post keep that choice, and the column that it made. -/
theorem postsOfUsers_again : postsOfUsers.validate = .ok () ∧
    (configTo ⟨"p"⟩ .manyToOne).kind ≠ .manyToMany ∧ ∃ next done,
      postsOfUsers.configureJoin ⟨"j", 0⟩ ⟨"u->p"⟩ (configTo ⟨"p"⟩ .manyToOne) = .ok (next, done) ∧
      ¬ postsOfUsers.TurnsRound ⟨"u->p"⟩ (configTo ⟨"p"⟩ .manyToOne) ∧
      next.configureJoin ⟨"k", 0⟩ ⟨"u->p"⟩ (configTo ⟨"p"⟩ .manyToOne) = .ok (next, done) := by
  have hvalidate : postsOfUsers.validate = .ok () := ok_of_toOption (by decide +kernel)
  have hmade : (postsOfUsers.configureJoin ⟨"j", 0⟩ ⟨"u->p"⟩
      (configTo ⟨"p"⟩ .manyToOne)).toOption.isSome = true := by decide +kernel
  obtain ⟨⟨next, done⟩, hbuilt⟩ := Option.isSome_iff_exists.mp hmade
  have hbuilt := ok_of_toOption hbuilt
  have hstraight : ¬ postsOfUsers.TurnsRound ⟨"u->p"⟩ (configTo ⟨"p"⟩ .manyToOne) :=
    fun hturned => absurd hturned.1 (by decide)
  exact ⟨hvalidate, by decide, next, done, hbuilt, hstraight,
    (configureJoin_again_iff hvalidate (by decide) hbuilt ⟨"k", 0⟩).1.mpr hstraight⟩

/-- Users that are to have many posts do not: by the second time the posts refer to themselves. -/
theorem postsOfUsers_turned : postsOfUsers.validate = .ok () ∧ ∃ next done last,
    postsOfUsers.configureJoin ⟨"j", 0⟩ ⟨"u->p"⟩ (configTo ⟨"p"⟩ .oneToMany) = .ok (next, done) ∧
    next.configureJoin ⟨"k", 0⟩ ⟨"u->p"⟩ (configTo ⟨"p"⟩ .oneToMany) = .ok (last, done) ∧
    last ≠ next ∧
    (next.foreignKey? ⟨"u->p"⟩).bind (·.2.foreignKey.bind (·.target)) =
      some ⟨⟨"u"⟩, some ⟨"u1"⟩⟩ ∧
    (last.foreignKey? ⟨"u->p"⟩).bind (·.2.foreignKey.bind (·.target)) =
      some ⟨⟨"p"⟩, some ⟨"p1"⟩⟩ := by
  have hvalidate : postsOfUsers.validate = .ok () := ok_of_toOption (by decide +kernel)
  let config := configTo ⟨"p"⟩ .oneToMany
  let first := (postsOfUsers.configureJoin ⟨"j", 0⟩ ⟨"u->p"⟩ config).toOption
  let second := first.bind fun made => (made.1.configureJoin ⟨"k", 0⟩ ⟨"u->p"⟩ config).toOption
  let targetIn (schema : Schema) : Option JoinTarget :=
    (schema.foreignKey? ⟨"u->p"⟩).bind (·.2.foreignKey.bind (·.target))
  have hfirst : first.map (fun made => targetIn made.1) = some (some ⟨⟨"u"⟩, some ⟨"u1"⟩⟩) := by
    decide +kernel
  have hsecond : second.map (fun made => targetIn made.1) = some (some ⟨⟨"p"⟩, some ⟨"p1"⟩⟩) := by
    decide +kernel
  have hdone : second.map (·.2) = first.map (·.2) := by decide +kernel
  obtain ⟨⟨next, done⟩, hmade, hnext⟩ := Option.map_eq_some_iff.mp hfirst
  obtain ⟨⟨last, done'⟩, hagain, hlast⟩ := Option.map_eq_some_iff.mp hsecond
  rw [hmade, hagain, Option.map_some, Option.map_some, Option.some.injEq] at hdone
  have hstep : second = (next.configureJoin ⟨"k", 0⟩ ⟨"u->p"⟩ config).toOption := by
    simp only [second, hmade, Option.bind_some]
  dsimp only at hdone
  subst hdone
  have hne : last ≠ next := by
    rintro rfl
    exact absurd (hnext.symm.trans hlast) (by decide)
  exact ⟨hvalidate, next, done', last, ok_of_toOption hmade, ok_of_toOption (hstep ▸ hagain), hne,
    hnext, hlast⟩

end Schema

end ErModel
