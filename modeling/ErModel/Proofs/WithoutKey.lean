import ErModel.Proofs.EntityOrder

/-!
# A document without one of its keys

A many-to-many key of an entity is no column in the end. What is left of it is one pending join, the
mirror of this join and a junction table that waits; its own column is gone, and no reference can have
meant it. If no other key of the entity refers to the same entity, no other join is numbered after
it. So the document without the key is linked to what the document with the key is linked to, without
that one join.
-/

namespace ErModel

/-- What is changed first in a list is changed first in what is left of it. -/
theorem filter_modifyFirst {α : Type} {p q : α → Bool} {f : α → α} (hf : ∀ x, q (f x) = q x)
    (hp : ∀ x, p x = true → q x = true) (xs : List α) :
    (modifyFirst p f xs).filter q = modifyFirst p f (xs.filter q) := by
  induction xs with
  | nil => rfl
  | cons x rest ih =>
      by_cases hx : p x = true
      · have hq := hp x hx
        rw [modifyFirst, if_pos hx, List.filter_cons_of_pos (hf x ▸ hq), List.filter_cons_of_pos hq,
          modifyFirst, if_pos hx]
      · rw [modifyFirst, if_neg hx]
        by_cases hq : q x = true
        · rw [List.filter_cons_of_pos hq, List.filter_cons_of_pos hq, modifyFirst, if_neg hx, ih]
        · rw [List.filter_cons_of_neg hq, List.filter_cons_of_neg hq, ih]

namespace Table

/-- The table without its columns of this name. -/
def dropColumn (table : Table) (name : String) : Table :=
  { table with columns := table.columns.filter (·.name ≠ name) }

variable {table : Table} {property name : String}

theorem clearAll_of_forall {joins : List JoinId} (h : ∀ j ∈ table.joins, j.id ∉ joins) :
    table.clearAll joins = table := by
  have hjoins : table.joins.filter (·.id ∉ joins) = table.joins :=
    List.filter_eq_self.mpr fun j hj => by simpa using h j hj
  rw [clearAll, hjoins]

theorem clearAll_link {joins : List JoinId} {join : Join} (hne : join.id ∉ joins) :
    (table.link property join).clearAll joins = (table.clearAll joins).link property join := by
  unfold link
  split
  · have hjoins : (table.joins ++ [join]).filter (·.id ∉ joins) =
        table.joins.filter (·.id ∉ joins) ++ [join] := by
      rw [List.filter_append, List.filter_cons_of_pos (by simpa using hne)]
      rfl
    rw [clearAll, hjoins]
    rfl
  · rfl

theorem dropColumn_link (hne : property ≠ name) (join : Join) :
    (table.link property join).dropColumn name = (table.dropColumn name).link property join := by
  unfold link
  split
  · rw [dropColumn, List.filter_comm]
    rfl
  · have hcolumns := filter_modifyFirst (p := (·.name = property)) (q := (·.name ≠ name))
      (f := fun c : Column => { c with foreignKey := some join }) (fun _ => rfl)
      (fun c hc => by simpa [of_decide_eq_true hc] using hne) table.columns
    exact congrArg (fun columns => { table with columns := columns }) hcolumns

/-- A many-to-many key takes its column away, and leaves its join. -/
theorem clearAll_link_self {join : Join} (hkind : join.kind = .manyToMany) :
    (table.link property join).clearAll [join.id] =
      (table.dropColumn property).clearAll [join.id] := by
  have hjoins : (table.joins ++ [join]).filter (·.id ∉ [join.id]) =
      table.joins.filter (·.id ∉ [join.id]) := by
    rw [List.filter_append, List.filter_cons_of_neg (by simp)]
    exact List.append_nil _
  unfold link
  rw [if_pos hkind, clearAll, hjoins]
  rfl

end Table

namespace Source

/-- The entity without its properties of this name. -/
def Entity.without (entity : Entity) (property : String) : Entity :=
  { entity with properties := entity.properties.filter (·.name ≠ property) }

/-- The document without a property of one of its entities. -/
def Document.without (document : Document) (entity property : String) : Document :=
  ⟨document.entities.map fun e => if e.name = entity then e.without property else e⟩

namespace Linking

/-- What is linked, without the first join that has been declared between a pair of tables. -/
def forget (linking : Linking) (pair : TableId × TableId) : Linking where
  tables := linking.tables.map (·.clearAll [.between pair.1 pair.2])
  declared := linking.declared.filter (· ≠ pair)
  mirrors := linking.mirrors.filter (·.2.id ∉ [.between pair.1 pair.2])
  deferred := linking.deferred.filter (·.join ∉ [.between pair.1 pair.2])

/-- What is linked, where the tables have no columns of this name. -/
def dropColumn (linking : Linking) (name : String) : Linking :=
  { linking with tables := linking.tables.map (·.dropColumn name) }

variable {linking next : Linking} {catalogue : List Table} {entity property : String}
  {source : TableId} {pair : TableId × TableId} {reference : Reference} {target : Table}
  {column : Column} {choice : ReferenceChoice} {properties : List Property}

/-! ## Linking the other keys -/

/-- No foreign key of the properties can become a join of this id. -/
def Avoids (catalogue : List Table) (source : TableId) (join : JoinId)
    (properties : List Property) : Prop :=
  ∀ property ∈ properties, ∀ reference, property.reference? = some reference →
    ∀ target column, reference.Means catalogue target column →
      ∀ n, JoinId.nth source target.id n ≠ join

/-- Joins between other tables are numbered as if there were none between these. -/
theorem joinOf_forget (hne : (source, target.id) ≠ pair) :
    (linking.forget pair).joinOf source target column choice =
      linking.joinOf source target column choice := by
  rw [joinOf, joinOf, forget, List.count_filter (by simpa using hne)]

theorem filter_waitingFor {join : JoinId} {joins : List JoinId} (hne : join ∉ joins)
    {target : JoinTarget} :
    (waitingFor entity reference join target choice).filter (·.join ∉ joins) =
      waitingFor entity reference join target choice := by
  refine List.filter_eq_self.mpr fun d hd => ?_
  unfold waitingFor at hd
  split at hd
  · rw [List.mem_singleton.mp hd]
    simpa using hne
  · cases hd

theorem filter_wantedMirror? {join : Join} {joins : List JoinId} (hne : join.id ∉ joins) :
    (wantedMirror? (source, join)).toList.filter (·.2.id ∉ joins) =
      (wantedMirror? (source, join)).toList := by
  refine List.filter_eq_self.mpr fun m hm => ?_
  rw [wantedMirror?_id (Option.mem_toList.mp hm)]
  simpa using hne

/-- Another join is linked in the same way where the first one between the pair is forgotten. -/
theorem forget_linked
    (hne : ∀ n, JoinId.nth source target.id n ≠ .between pair.1 pair.2) :
    (linking.linked entity source property reference target column choice).forget pair =
      (linking.forget pair).linked entity source property reference target column choice := by
  have hpair : (source, target.id) ≠ pair := by
    rintro rfl
    exact hne 0 rfl
  have hid : (linking.joinOf source target column choice).id ∉
      [JoinId.between pair.1 pair.2] := by
    rw [List.mem_singleton]
    exact hne _
  have htables : (modifyFirst (·.id = source)
        (·.link property (linking.joinOf source target column choice)) linking.tables).map
          (·.clearAll [.between pair.1 pair.2]) =
      modifyFirst (·.id = source) (·.link property (linking.joinOf source target column choice))
        (linking.tables.map (·.clearAll [.between pair.1 pair.2])) := by
    refine map_modifyFirst_comm (fun _ => ?_) (fun _ => ?_) _
    · rfl
    · exact Table.clearAll_link hid
  rw [linked, linked, joinOf_forget hpair]
  simp only [forget, htables, List.filter_append, filter_waitingFor hid, filter_wantedMirror? hid]
  rw [List.filter_cons_of_pos (by simpa using hpair)]

theorem dropColumn_linked {name : String} (hne : property ≠ name) :
    (linking.linked entity source property reference target column choice).dropColumn name =
      (linking.dropColumn name).linked entity source property reference target column choice := by
  have htables : (modifyFirst (·.id = source)
        (·.link property (linking.joinOf source target column choice)) linking.tables).map
          (·.dropColumn name) =
      modifyFirst (·.id = source) (·.link property (linking.joinOf source target column choice))
        (linking.tables.map (·.dropColumn name)) := by
    refine map_modifyFirst_comm (fun _ => ?_) (fun _ => ?_) _
    · rfl
    · exact Table.dropColumn_link hne _
  rw [linked, dropColumn, htables]
  rfl

theorem linksAll_append {properties' : List Property} :
    LinksAll catalogue entity source linking (properties ++ properties') next ↔ ∃ middle,
      LinksAll catalogue entity source linking properties middle ∧
        LinksAll catalogue entity source middle properties' next := by
  induction properties generalizing linking with
  | nil => exact ⟨fun h => ⟨linking, rfl, h⟩, fun ⟨_, hmiddle, h⟩ => hmiddle ▸ h⟩
  | cons property rest ih =>
      rw [List.cons_append, LinksAll]
      simp only [LinksAll]
      cases property.reference? with
      | none => exact ih
      | some reference =>
          constructor
          · rintro ⟨first, hfirst, hrest⟩
            obtain ⟨middle, hmiddle, hnext⟩ := ih.mp hrest
            exact ⟨middle, ⟨first, hfirst, hmiddle⟩, hnext⟩
          · rintro ⟨middle, ⟨first, hfirst, hmiddle⟩, hnext⟩
            exact ⟨first, hfirst, ih.mpr ⟨middle, hmiddle, hnext⟩⟩

/-- **Properties whose joins are others are linked in the same way without a join**, and declare none
between its tables. -/
theorem LinksAll.forget (h : LinksAll catalogue entity source linking properties next)
    (pair : TableId × TableId) (hne : Avoids catalogue source (.between pair.1 pair.2) properties) :
    LinksAll catalogue entity source (linking.forget pair) properties (next.forget pair) ∧
      (pair ∉ linking.declared → pair ∉ next.declared) := by
  induction properties generalizing linking with
  | nil =>
      obtain rfl := h
      exact ⟨rfl, id⟩
  | cons property rest ih =>
      obtain ⟨hone, hrest⟩ := List.forall_mem_cons.mp hne
      rw [LinksAll] at h ⊢
      cases hr : property.reference? with
      | none =>
          rw [hr] at h
          exact ih h hrest
      | some reference =>
          rw [hr] at h
          obtain ⟨_, ⟨target, column, choice, hmeans, hchoice, rfl⟩, h⟩ := h
          have hother := hone reference hr target column hmeans
          obtain ⟨hall, hdeclared⟩ := ih h hrest
          refine ⟨⟨_, ⟨target, column, choice, hmeans, hchoice, rfl⟩, ?_⟩, fun hnone => ?_⟩
          · rwa [← forget_linked hother]
          · refine hdeclared fun hmem => ?_
            rcases List.mem_cons.mp hmem with rfl | hmem
            · exact hother 0 rfl
            · exact hnone hmem

/-- Properties are linked in the same way without a column that is none of theirs. -/
theorem LinksAll.dropColumn (h : LinksAll catalogue entity source linking properties next)
    {name : String} (hne : name ∉ properties.map (·.name)) :
    LinksAll catalogue entity source (linking.dropColumn name) properties
      (next.dropColumn name) := by
  induction properties generalizing linking with
  | nil =>
      obtain rfl := h
      rfl
  | cons property rest ih =>
      rw [List.map_cons, List.mem_cons, not_or] at hne
      rw [LinksAll] at h ⊢
      cases hr : property.reference? with
      | none =>
          rw [hr] at h
          exact ih h hne.2
      | some reference =>
          rw [hr] at h
          obtain ⟨_, ⟨target, column, choice, hmeans, hchoice, rfl⟩, h⟩ := h
          refine ⟨_, ⟨target, column, choice, hmeans, hchoice, rfl⟩, ?_⟩
          rw [← dropColumn_linked (Ne.symm hne.1)]
          exact ih h hne.2

/-- What each key that is linked preserves holds in the end. -/
theorem LinksAll.preserves {P : Linking → Prop}
    (h : LinksAll catalogue entity source linking properties next) (hP : P linking)
    (hstep : ∀ linking property reference target column choice, P linking →
      P (Linking.linked linking entity source property reference target column choice)) :
    P next := by
  induction properties generalizing linking with
  | nil =>
      obtain rfl := h
      exact hP
  | cons property rest ih =>
      rw [LinksAll] at h
      cases hr : property.reference? with
      | none =>
          rw [hr] at h
          exact ih h hP
      | some reference =>
          rw [hr] at h
          obtain ⟨_, ⟨target, column, choice, -, -, rfl⟩, h⟩ := h
          exact ih h (hstep _ _ _ _ _ _ hP)

/-- What waits for a junction table goes on to do so. -/
theorem LinksAll.deferred_subset (h : LinksAll catalogue entity source linking properties next) :
    linking.deferred ⊆ next.deferred :=
  h.preserves (P := fun later => linking.deferred ⊆ later.deferred) (List.Subset.refl _)
    fun _ _ _ _ _ _ hsub => List.Subset.trans hsub (List.subset_append_left _ _)

theorem LinksAll.of (h : LinksAll catalogue entity source linking properties next)
    (hof : linking.Of source) : next.Of source :=
  h.preserves (P := (·.Of source)) hof fun _ _ _ _ _ _ hof => Of.linked hof _ _ _ _ _

/-- Linking takes columns away, and what they say beside their foreign keys stays. -/
theorem LinksAll.columns {α : Type} {f : Column → α}
    (hf : ∀ (c : Column) (join : Join), f { c with foreignKey := some join } = f c)
    (h : LinksAll catalogue entity source linking properties next) :
    ∀ t ∈ next.tables, ∃ u ∈ linking.tables, u.id = t.id ∧ u.name = t.name ∧
      t.columns.map f ⊆ u.columns.map f := by
  refine h.preserves (P := fun later => ∀ t ∈ later.tables, ∃ u ∈ linking.tables, u.id = t.id ∧
    u.name = t.name ∧ t.columns.map f ⊆ u.columns.map f)
    (fun t ht => ⟨t, ht, rfl, rfl, List.Subset.refl _⟩) ?_
  intro later property reference target column choice hlater t ht
  rcases mem_tables_linked ht with ht | ⟨u, hu, rfl⟩
  · exact hlater t ht
  · obtain ⟨v, hv, hid, hname, hcolumns⟩ := hlater u hu
    refine ⟨v, hv, hid.trans Table.link_id.symm, hname.trans Table.link_name.symm, ?_⟩
    exact List.Subset.trans (Table.columns_link_sublist fun c => hf c _).subset hcolumns

/-- The join of a many-to-many key is forgotten, and all that is left of the key is that its column
is gone. -/
theorem forget_linked_self (hof : linking.Of source) (hkind : choice.kind = .manyToMany)
    (hnew : (source, target.id) ∉ linking.declared) :
    (linking.linked entity source property reference target column choice).forget
      (source, target.id) = (linking.dropColumn property).forget (source, target.id) := by
  obtain ⟨t, ht, hid⟩ := hof.table
  have hjoin : (linking.joinOf source target column choice).id = .between source target.id := by
    rw [joinOf, List.count_eq_zero.mpr hnew]
    rfl
  have hwaiting : (waitingFor entity reference (linking.joinOf source target column choice).id
      ⟨target.id, some column.id⟩ choice).filter (·.join ∉ [.between source target.id]) = [] := by
    rw [waitingFor, if_pos hkind, hjoin]
    simp
  have hmirrors : (wantedMirror? (source, linking.joinOf source target column choice)).toList.filter
      (·.2.id ∉ [.between source target.id]) = [] := by
    refine List.filter_eq_nil_iff.mpr fun m hm => ?_
    rw [wantedMirror?_id (Option.mem_toList.mp hm)]
    simpa using hjoin
  have htable : (t.link property (linking.joinOf source target column choice)).clearAll
      [.between source target.id] = (t.dropColumn property).clearAll [.between source target.id] := by
    rw [← hjoin]
    exact Table.clearAll_link_self hkind
  simp only [linked, forget, dropColumn, ht, List.filter_append, hwaiting, hmirrors, List.append_nil]
  rw [modifyFirst, if_pos (by simpa using hid), List.filter_cons_of_neg (by simp)]
  simp only [List.map_cons, List.map_nil, htable]

/-! ## A document part by part -/

theorem Of.forget {part : Linking} (h : part.Of source) (pair : TableId × TableId) :
    (part.forget pair).Of source := by
  obtain ⟨t, ht, hid⟩ := h.table
  refine ⟨⟨t.clearAll [.between pair.1 pair.2], ?_, hid⟩, fun p hp => ?_⟩
  · rw [Linking.forget, ht]
    rfl
  · exact h.declared p (List.mem_filter.mp hp).1

theorem forget_start {tables : List Table} (h : ∀ t ∈ tables, t.joins = []) :
    (start tables).forget pair = start tables := by
  have htables : tables.map (·.clearAll [.between pair.1 pair.2]) = tables := by
    refine (List.map_congr_left fun t ht => ?_).trans (List.map_id _)
    exact Table.clearAll_of_forall fun j hj => absurd hj (h t ht ▸ List.not_mem_nil)
  rw [forget, start, htables]
  rfl

theorem forget_together (before : Linking) (parts : List Linking) :
    (before.together parts).forget pair =
      (before.forget pair).together (parts.map (·.forget pair)) := by
  induction parts generalizing before with
  | nil => rfl
  | cons part rest ih =>
      have hone : (before.around part []).forget pair =
          (before.forget pair).around (part.forget pair) [] := by
        simp only [forget, around, List.map_append, List.map_nil, List.filter_append]
      rw [together, List.foldl_cons, List.map_cons, together, List.foldl_cons, ← hone]
      exact ih _

/-- The part of another entity has nothing to forget. -/
theorem PartOf.forget {e : Entity × Table} {part : Linking} (h : PartOf catalogue e part)
    (hplain : e.2.joins = [])
    (hne : Avoids catalogue e.2.id (.between pair.1 pair.2) e.1.properties) :
    PartOf catalogue e (part.forget pair) := by
  obtain ⟨hlinks, hof⟩ := h
  have hall := (hlinks.forget pair hne).1
  rw [forget_start (List.forall_mem_singleton.mpr hplain)] at hall
  exact ⟨hall, hof.forget pair⟩

end Linking

/-- What is chosen for the join of a many-to-many key: what the key declares, and an inverse column
in any case. -/
def Reference.junctionConfig (reference : Reference) (choice : ReferenceChoice)
    (target : JoinTarget) : JoinConfig where
  target := target
  kind := .manyToMany
  onDelete := choice.onDelete
  onUpdate := choice.onUpdate
  through := choice.through
  joinColumn := choice.joinColumn
  inverseColumn :=
    some (choice.inverseColumn.getD ⟨foreignKeyName reference.target, reference.column⟩)

theorem waitingFor_manyToMany {entity : String} {reference : Reference} {join : JoinId}
    {target : JoinTarget} {choice : ReferenceChoice} (hkind : choice.kind = .manyToMany) :
    waitingFor entity reference join target choice =
      [⟨entity, join, reference.junctionConfig choice target⟩] := by
  rw [waitingFor, if_pos hkind, hkind]
  rfl

namespace Linking

variable {catalogue : List Table}

/-- **The part of an entity without its key** is that of the entity, without the join of the key. -/
theorem PartOf.without {e : Entity × Table} {part : Linking} (h : PartOf catalogue e part)
    (hplain : e.2.joins = []) {before behind : List Property} {property : Property}
    (hproperties : e.1.properties = before ++ property :: behind)
    (hname : property.name ∉ before.map (·.name)) {reference : Reference}
    (hr : property.reference? = some reference) {choice : ReferenceChoice}
    (hchoice : reference.options.foldlM ReferenceChoice.choose {} = .ok choice)
    (hkind : choice.kind = .manyToMany)
    (hne : ∀ target column, reference.Means catalogue target column →
      Avoids catalogue e.2.id (.between e.2.id target.id) (before ++ behind)) :
    ∃ target column, reference.Means catalogue target column ∧
      PartOf catalogue ({ e.1 with properties := before ++ behind }, e.2.dropColumn property.name)
        (part.forget (e.2.id, target.id)) ∧
      ⟨e.1.name, .between e.2.id target.id,
        reference.junctionConfig choice ⟨target.id, some column.id⟩⟩ ∈ part.deferred := by
  obtain ⟨hlinks, hof⟩ := h
  rw [hproperties, linksAll_append] at hlinks
  obtain ⟨middle, hbefore, hlinks⟩ := hlinks
  rw [LinksAll, hr] at hlinks
  obtain ⟨_, ⟨target, column, chosen, hmeans, hchosen, rfl⟩, hbehind⟩ := hlinks
  obtain rfl : chosen = choice := Except.ok.inj (hchosen.symm.trans hchoice)
  let pair : TableId × TableId := (e.2.id, target.id)
  have hplain' : ∀ t ∈ [e.2.dropColumn property.name], t.joins = [] :=
    List.forall_mem_singleton.mpr hplain
  obtain ⟨havoid, havoid'⟩ := List.forall_mem_append.mp (hne target column hmeans)
  -- the keys before it, the key itself and those behind it
  have hstart : (start [e.2]).Of e.2.id :=
    ⟨⟨e.2, rfl, rfl⟩, fun _ hmem => absurd hmem List.not_mem_nil⟩
  have hnew : pair ∉ middle.declared :=
    (hbefore.forget pair havoid).2 List.not_mem_nil
  have hfirst := ((hbefore.dropColumn hname).forget pair havoid).1
  have hrest := (hbehind.forget pair havoid').1
  rw [forget_linked_self (hbefore.of hstart) hkind hnew] at hrest
  have hall := linksAll_append.mpr ⟨_, hfirst, hrest⟩
  rw [show (start [e.2]).dropColumn property.name = start [e.2.dropColumn property.name] from rfl,
    forget_start hplain'] at hall
  refine ⟨target, column, hmeans, ⟨hall, hof.forget pair⟩, hbehind.deferred_subset ?_⟩
  have hjoin : (middle.joinOf e.2.id target column chosen).id = .between e.2.id target.id := by
    rw [joinOf, List.count_eq_zero.mpr hnew]
    rfl
  rw [linked, waitingFor_manyToMany hkind, hjoin]
  exact List.mem_append_right _ List.mem_cons_self

end Linking

/-- The junction table that the key of an entity waits for, if it is the first between its tables. -/
def Reference.deferred (reference : Reference) (choice : ReferenceChoice) (entity : String)
    (a b : Table) (c : Column) : Deferred :=
  ⟨entity, .between a.id b.id, reference.junctionConfig choice ⟨b.id, some c.id⟩⟩

/-- A many-to-many key of an entity refers to a column, and its join waits for a junction table. -/
structure Linking.Waits (linking : Linking) (entity : String) (reference : Reference)
    (choice : ReferenceChoice) (a b : Table) (c : Column) : Prop where
  source : a ∈ linking.tables
  target : b ∈ linking.tables
  column : c ∈ b.columns
  sourceName : a.name = entity
  targetName : b.name = reference.target
  columnName : c.name = reference.column
  deferred : reference.deferred choice entity a b c ∈ linking.deferred

/-- An entity and its table without a property, if this is the entity. -/
def lacking (entity property : String) (e : Entity × Table) : Entity × Table :=
  if e.1.name = entity then (e.1.without property, e.2.dropColumn property) else e

theorem lacking_id (entity property : String) (e : Entity × Table) :
    (lacking entity property e).2.id = e.2.id := by
  rw [lacking]
  split <;> rfl

theorem lacking_name (entity property : String) (e : Entity × Table) :
    (lacking entity property e).2.name = e.2.name := by
  rw [lacking]
  split <;> rfl

/-- The properties of an entity around one of them. -/
theorem Entity.split_properties {entity : Entity} (hn : (entity.properties.map (·.name)).Nodup)
    {property : Property} (hp : property ∈ entity.properties) :
    ∃ before behind, entity.properties = before ++ property :: behind ∧
      (∀ other ∈ before ++ behind, other.name ≠ property.name) ∧
      entity.without property.name = { entity with properties := before ++ behind } := by
  obtain ⟨before, behind, hsplit⟩ := List.append_of_mem hp
  rw [hsplit, List.map_append, List.map_cons, List.nodup_middle, List.nodup_cons, ← List.map_append,
    List.mem_map] at hn
  have hother : ∀ other ∈ before ++ behind, other.name ≠ property.name :=
    fun other hother he => hn.1 ⟨other, hother, he⟩
  have hfilter : entity.properties.filter (·.name ≠ property.name) = before ++ behind := by
    rw [hsplit, List.filter_append, List.filter_cons_of_neg (by simp), ← List.filter_append]
    exact List.filter_eq_self.mpr fun other hmem => by simpa using hother other hmem
  exact ⟨before, behind, hsplit, hother, by rw [Entity.without, hfilter]⟩

/-- A reference means one column, where names tell tables and columns apart. -/
theorem Reference.Means.unique {reference : Reference} {tables : List Table} {target other : Table}
    {column column' : Column} (h : reference.Means tables target column)
    (h' : reference.Means tables other column') (hn : (tables.map (·.name)).Nodup) :
    other = target :=
  eq_of_key_eq hn h'.tableMem h.tableMem (h'.tableName.trans h.tableName.symm)

variable {ids ids' : IdSupply} {document : Document} {linking : Linking}
  {described : List (Entity × Table)}

/-! ## Which keys have other joins -/

section

variable {catalogue : List Table} {source source' : TableId} {target : Table}

/-- The joins of another table have other ids. -/
theorem avoids_of_source (hdrawn : ∀ t ∈ catalogue, ∃ k, t.id = ids.tableId k)
    (hs : ∃ k, source = ids.tableId k) (hs' : ∃ k, source' = ids.tableId k) (hne : source ≠ source')
    (ht : target ∈ catalogue) (properties : List Property) :
    Linking.Avoids catalogue source (.between source' target.id) properties := by
  intro property _ reference _ other column hmeans n he
  obtain ⟨⟨a, rfl⟩, ⟨a', rfl⟩⟩ := hs, hs'
  obtain ⟨b, hb⟩ := hdrawn target ht
  obtain ⟨b', hb'⟩ := hdrawn other hmeans.tableMem
  rw [hb, hb'] at he
  have he : JoinId.nth (ids.tableId a) (ids.tableId b') n = .nth _ (ids.tableId b) 0 := he
  obtain ⟨rfl, -, -⟩ := JoinId.nth_supply_inj he
  exact hne rfl

/-- The joins to other tables have other ids. -/
theorem avoids_of_target (hdrawn : ∀ t ∈ catalogue, ∃ k, t.id = ids.tableId k)
    (hids : (catalogue.map (·.id)).Nodup) (hs : ∃ k, source = ids.tableId k)
    (ht : target ∈ catalogue) {properties : List Property}
    (hne : ∀ property ∈ properties, ∀ reference, property.reference? = some reference →
      reference.target ≠ target.name) :
    Linking.Avoids catalogue source (.between source target.id) properties := by
  intro property hp reference hr other column hmeans n he
  obtain ⟨a, rfl⟩ := hs
  obtain ⟨b, hb⟩ := hdrawn target ht
  obtain ⟨b', hb'⟩ := hdrawn other hmeans.tableMem
  rw [hb, hb'] at he
  have he : JoinId.nth (ids.tableId a) (ids.tableId b') n = .nth _ (ids.tableId b) 0 := he
  obtain ⟨-, rfl, -⟩ := JoinId.nth_supply_inj he
  obtain rfl := eq_of_key_eq hids hmeans.tableMem ht (hb'.trans hb.symm)
  exact hne property hp reference hr hmeans.tableName.symm

end

section

variable (h : LinksUp ids (places Entity.idCount 0 document.entities) described linking)
  (hd : document.Distinct)

include h

theorem LinksUp.plain {e : Entity × Table} (he : e ∈ described) :
    e.2.joins = [] ∧ e.2.name = e.1.name := by
  obtain ⟨x, -, hx, htable⟩ := exists_left h.describes he
  exact ⟨((tablesOf_eq_ok h.tables).2.2 e.2 (List.mem_map.mpr ⟨e, he, rfl⟩)).2,
    hx ▸ (Entity.table_named htable).2⟩

/-- The table that an entity describes is among those that come out. -/
theorem LinksUp.mem_tables {e : Entity × Table} {part : Linking}
    (hpart : Linking.PartOf linking.tables e part) (he : e ∈ described)
    (hmem : part.tables ⊆ linking.tables) :
    ∃ t ∈ part.tables, t ∈ linking.tables ∧ t.id = e.2.id ∧ t.name = e.1.name := by
  obtain ⟨t, ht, hid⟩ := hpart.2.table
  have ht := ht ▸ List.mem_singleton_self t
  obtain ⟨u, hu, -, hname, -⟩ := hpart.1.columns (f := Column.id) (fun _ _ => rfl) t ht
  obtain rfl := List.mem_singleton.mp hu
  exact ⟨t, ht, hmem ht, hid, hname.symm.trans (h.plain he).2⟩

include hd

theorem LinksUp.drawn {t : Table} (ht : t ∈ linking.tables) : ∃ k, t.id = ids.tableId k :=
  (h.sound hd).drawn.tableId ht

theorem LinksUp.tableNames : (linking.tables.map (·.name)).Nodup := by
  obtain ⟨-, -, htables⟩ := placeMirrors (h.sound hd).mirrors
  exact htables.names ▸ h.valid.names

theorem LinksUp.described_names : (described.map (·.1.name)).Nodup := by
  have hnames := hd.entities
  rwa [← entities_of_describes h.describes, List.map_map] at hnames

theorem LinksUp.described_ids : (described.map (·.2.id)).Nodup := by
  have hids := (h.start_sound hd).1.drawn.ids_nodup
  rwa [Linking.bare, Linking.start, List.map_map] at hids

theorem LinksUp.described_drawn {e : Entity × Table} (he : e ∈ described) :
    ∃ k, e.2.id = ids.tableId k :=
  (h.start_sound hd).1.drawn.tableId (List.mem_map.mpr ⟨_, he, rfl⟩)

/-- Where a property lacks, names still tell tables and columns apart. -/
theorem LinksUp.named_lacking (entity property : String) :
    (Linking.start ((described.map (lacking entity property)).map (·.2))).Named := by
  obtain ⟨hstart, hnames, -, -⟩ := h.start_sound hd
  refine ⟨?_, fun t ht => ?_⟩
  · rw [Linking.start, List.map_map, List.map_map]
    simpa only [Function.comp_def, lacking_name] using hnames
  · obtain ⟨e', he', rfl⟩ := List.mem_map.mp ht
    obtain ⟨e, he, rfl⟩ := List.mem_map.mp he'
    have hn := hstart.columnNames e.2 (List.mem_map.mpr ⟨e, he, rfl⟩)
    rw [lacking]
    split
    · exact hn.sublist (List.filter_sublist.map _)
    · exact hn

variable {entity : Entity} (he : entity ∈ document.entities) {property : Property}
  (hp : property ∈ entity.properties) {reference : Reference}
  (hr : property.reference? = some reference) {choice : ReferenceChoice}
  (hchoice : reference.options.foldlM ReferenceChoice.choose {} = .ok choice)
  (hkind : choice.kind = .manyToMany)
  (honly : ∀ other ∈ entity.properties, ∀ reference', other.reference? = some reference' →
    reference'.target = reference.target → other = property)

include hp hr hchoice hkind honly

/-- The part of the entity can be linked without the key. -/
theorem LinksUp.part_without {table : Table} (hmem : (entity, table) ∈ described) {part : Linking}
    (hpart : Linking.PartOf linking.tables (entity, table) part) :
    ∃ target column, reference.Means linking.tables target column ∧
      Linking.PartOf linking.tables
        (entity.without property.name, table.dropColumn property.name)
        (part.forget (table.id, target.id)) ∧
      ⟨entity.name, .between table.id target.id,
        reference.junctionConfig choice ⟨target.id, some column.id⟩⟩ ∈ part.deferred := by
  obtain ⟨-, -, hdistinct, -⟩ := h.start_sound hd
  have hsource : ∃ k, table.id = ids.tableId k := h.described_drawn hd hmem
  obtain ⟨before, behind, hsplit, hothers, hwithout⟩ :=
    Entity.split_properties (hdistinct _ hmem) hp
  rw [hwithout]
  refine hpart.without (h.plain hmem).1 hsplit (fun hname => ?_) hr hchoice hkind ?_
  · obtain ⟨other, hother, he⟩ := List.mem_map.mp hname
    exact hothers other (List.mem_append_left _ hother) he
  · intro target column hmeans
    refine avoids_of_target (fun _ => h.drawn hd) (h.sound hd).drawn.ids_nodup hsource
      hmeans.tableMem ?_
    intro other hother reference' hr' he'
    have hmem : other ∈ entity.properties := by
      rw [hsplit, List.mem_append, List.mem_cons]
      exact (List.mem_append.mp hother).imp_right Or.inr
    exact hothers other hother
      (congrArg Property.name (honly other hmem reference' hr' (he'.trans hmeans.tableName)))

/-- The parts of all entities can be linked without the key. -/
theorem LinksUp.parts_without {table : Table} (hmem : (entity, table) ∈ described)
    {parts : List Linking}
    (hparts : List.Forall₂ (Linking.PartOf linking.tables) described parts) {target : Table}
    {column : Column} (hmeans : reference.Means linking.tables target column) :
    List.Forall₂ (Linking.PartOf linking.tables)
      (described.map (lacking entity.name property.name))
      (parts.map (·.forget (table.id, target.id))) := by
  rw [List.forall₂_map_left_iff, List.forall₂_map_right_iff]
  refine forall₂_imp_mem hparts fun e he part _ hpart => ?_
  by_cases hsame : e.1.name = entity.name
  · obtain rfl : e = (entity, table) := eq_of_key_eq (h.described_names hd) he hmem hsame
    obtain ⟨target', column', hmeans', hlinked, -⟩ :=
      h.part_without hd hp hr hchoice hkind honly hmem hpart
    obtain rfl := hmeans.unique hmeans' (h.tableNames hd)
    rw [lacking, if_pos hsame]
    exact hlinked
  · have hne : e.2.id ≠ table.id := fun hid => hsame <| congrArg (·.1.name) <|
      eq_of_key_eq (h.described_ids hd) he hmem hid
    rw [lacking, if_neg hsame]
    exact hpart.forget (h.plain he).1 (avoids_of_source (fun _ => h.drawn hd)
      (h.described_drawn hd he) (h.described_drawn hd hmem) hne hmeans.tableMem _)

include he

/-- **A document without a many-to-many key is linked as it is with the key**, but for the join of
the key, if no other key of the entity refers to the same entity. -/
theorem LinksUp.forget :
    ∃ a b c, linking.Waits entity.name reference choice a b c ∧
      (∃ table, (entity, table) ∈ described ∧ table.id = a.id ∧
        a.columns.map (·.primaryKey) ⊆
          (table.dropColumn property.name).columns.map (·.primaryKey)) ∧
      Linking.linkEntities (.start ((described.map (lacking entity.name property.name)).map (·.2)))
          ((described.map (lacking entity.name property.name)).map fun e => (e.1, e.2.id)) =
        .ok (linking.forget (a.id, b.id)) := by
  obtain ⟨hstart, hnames, hdistinct, hawaits⟩ := h.start_sound hd
  obtain ⟨parts, hparts, hlinking⟩ :=
    Linking.exists_parts hstart hnames hdistinct hawaits h.links h.valid
  obtain ⟨htables, -, hdeferred⟩ := Linking.together_eq (.start []) parts
  rw [← hlinking] at htables hdeferred
  have hsub : ∀ part ∈ parts, part.tables ⊆ linking.tables ∧ part.deferred ⊆ linking.deferred := by
    intro part hpart
    rw [htables, hdeferred]
    exact ⟨fun t ht => List.mem_append_right _ (List.mem_flatMap.mpr ⟨part, hpart, ht⟩),
      fun d hd => List.mem_append_right _ (List.mem_flatMap.mpr ⟨part, hpart, hd⟩)⟩
  obtain ⟨table, hmem⟩ : ∃ table, (entity, table) ∈ described := by
    obtain ⟨e, hmem, rfl⟩ := List.mem_map.mp (entities_of_describes h.describes ▸ he)
    exact ⟨e.2, hmem⟩
  obtain ⟨part, hpartMem, hpart⟩ := exists_right hparts hmem
  obtain ⟨target, column, hmeans, hwithout, hwaits⟩ :=
    h.part_without hd hp hr hchoice hkind honly hmem hpart
  obtain ⟨a, hapart, ha, haid, haname⟩ := h.mem_tables hpart hmem (hsub part hpartMem).1
  dsimp only at haid haname hwaits
  have hkeys : a.columns.map (·.primaryKey) ⊆
      (table.dropColumn property.name).columns.map (·.primaryKey) := by
    obtain ⟨u, hu, -, -, hcolumns⟩ := hwithout.1.columns (f := Column.primaryKey) (fun _ _ => rfl) _
      (List.mem_map.mpr ⟨a, hapart, rfl⟩)
    rwa [List.mem_singleton.mp hu] at hcolumns
  rw [← haid] at hwaits
  refine ⟨a, target, column, ⟨ha, hmeans.tableMem, hmeans.columnMem, haname, hmeans.tableName,
    hmeans.columnName, (hsub part hpartMem).2 hwaits⟩, ⟨table, hmem, haid.symm, hkeys⟩, ?_⟩
  have hforgotten : linking.forget (a.id, target.id) =
      (Linking.start []).together (parts.map (·.forget (a.id, target.id))) :=
    (congrArg (·.forget (a.id, target.id)) hlinking).trans (Linking.forget_together _ parts)
  have hleft := h.parts_without hd hp hr hchoice hkind honly hmem hparts hmeans
  rw [← haid] at hleft
  rw [hforgotten]
  refine Linking.linkEntities_of_parts ?_ (h.named_lacking hd _ _) hleft ?_
  · rw [List.map_map]
    simpa only [Function.comp_def, lacking_id] using h.described_ids hd
  · rw [← hforgotten]
    intro t ht
    exact ⟨_, List.mem_map.mpr ⟨t, ht, rfl⟩, rfl, rfl, fun c hc => ⟨c, hc, rfl, rfl⟩⟩

end

end Source

end ErModel
