import ErModel.Graph.Basic
import ErModel.Proofs.Edits

/-!
# The views of a join

A join is looked for in several ways: as what an edge stands for, as a foreign key column, as a
pending record, as a mirror, and as an edge of the graph. Each is a search of its own, in its own
order and with its own condition. In a valid schema they all come down to one list, that of the
owning records, where an id stands once.

What an edge stands for needs a word more: among the joins of a table it may be any record of the
join that refers to where it comes from, and that may be a mirror, if mirrors refer to anything.
-/

namespace ErModel

/-- The table has what the edge stands for: a column that carries the join, or among its joins a
record that comes from the table or refers to where it comes from. -/
def Table.Resolves (table : Table) (edge : JoinId) : Prop :=
  (∃ c ∈ table.columns, c.carries edge = true) ∨
    ∃ j ∈ table.joins, j.id = edge ∧ (j.source = table.id ∨ j.isSelfJoin = true)

namespace Schema

variable {schema : Schema} {join : JoinId} {owned : OwnedJoin} {t : Table}

/-- No mirror refers to a table. -/
def MirrorsBlank (schema : Schema) : Prop := ∀ m ∈ schema.allMirrors, m.2.target = none

theorem MirrorsBlank.mirrors (hm : schema.MirrorsBlank) :
    ∀ m ∈ schema.mirrors join, m.2.target = none := by
  intro m hmem
  rw [mirrors_eq_filter] at hmem
  exact hm m (List.mem_filter.mp hmem).1

theorem mem_mirrors {m : Table × Join} : m ∈ schema.mirrors join ↔
    m.1 ∈ schema.tables ∧ m.2 ∈ m.1.joins ∧ m.2.id = join ∧ m.2.source ≠ m.1.id := by
  rw [mirrors_eq_filter, List.mem_filter, mem_allMirrors, Table.mirrors, List.mem_filter]
  simp only [decide_eq_true_eq]
  constructor
  · rintro ⟨⟨ht, hj, hs⟩, hid⟩
    exact ⟨ht, hj, hid, hs⟩
  · rintro ⟨ht, hj, hid, hs⟩
    exact ⟨⟨ht, hj, hs⟩, hid⟩

/-! ## What is found -/

/-- An edge stands for an owning record. -/
theorem owned_of_resolveEdge? (hm : ∀ m ∈ schema.mirrors join, m.2.target = none)
    (h : schema.resolveEdge? join = some owned) :
    owned ∈ schema.owningJoins ∧ owned.join.id = join := by
  obtain ⟨t, ht, hfound⟩ := List.exists_of_findSome?_eq_some h
  split at hfound
  · rename_i c hc
    obtain ⟨record, hf, rfl⟩ := Option.map_eq_some_iff.mp hfound
    obtain ⟨carried, hcarried, hid⟩ := Column.carries_iff.mp
      (List.find?_some (p := fun c : Column => c.carries join) hc)
    cases hf.symm.trans hcarried
    exact ⟨mem_owningJoins_of_column ht (List.mem_of_find?_eq_some hc) hf, hid⟩
  · obtain ⟨j, hj, rfl⟩ := Option.map_eq_some_iff.mp hfound
    have hjoins := List.mem_of_find?_eq_some hj
    have hmeant := List.find?_some hj
    simp only [Bool.and_eq_true, Bool.or_eq_true, decide_eq_true_eq] at hmeant
    obtain ⟨hid, hmeant⟩ := hmeant
    refine ⟨mem_owningJoins_of_pending ht hjoins ?_, hid⟩
    by_contra hne
    -- a record from elsewhere is a mirror, and one that refers to no table is no self-join
    have hself : j.isSelfJoin = true := hmeant.resolve_left hne
    rw [Join.isSelfJoin, Join.peer?, hm (t, j) (mem_mirrors.mpr ⟨ht, hjoins, hid, hne⟩)] at hself
    simp at hself

/-- Something is found just if there is a table to find it in. -/
theorem resolveEdge?_isSome_iff :
    (schema.resolveEdge? join).isSome = true ↔ ∃ t ∈ schema.tables, t.Resolves join := by
  refine List.findSome?_isSome_iff.trans (exists_congr fun t => and_congr_right fun _ => ?_)
  cases hfound : t.columns.find? (·.carries join) with
  | some c =>
      have hcarries : c.carries join = true :=
        List.find?_some (p := fun c : Column => c.carries join) hfound
      obtain ⟨record, hf, -⟩ := Column.carries_iff.mp hcarries
      simp only [hf, Option.map_some, Option.isSome_some, true_iff]
      exact Or.inl ⟨c, List.mem_of_find?_eq_some hfound, hcarries⟩
  | none =>
      have hcolumns : ¬ ∃ c ∈ t.columns, c.carries join = true := fun ⟨c, hc, hcarries⟩ =>
        List.find?_eq_none.mp hfound c hc hcarries
      rw [Table.Resolves, or_iff_right hcolumns, Option.isSome_map, List.find?_isSome]
      simp only [Bool.and_eq_true, Bool.or_eq_true, decide_eq_true_eq]

/-- An owning record does not escape the search, whichever is found. -/
theorem resolveEdge?_isSome (ho : owned ∈ schema.owningJoins) :
    (schema.resolveEdge? owned.join.id).isSome = true := by
  obtain ⟨ht, ⟨c, hc, -, hf⟩ | ⟨-, hpending⟩⟩ := mem_owningJoins ho
  · exact resolveEdge?_isSome_iff.mpr
      ⟨_, ht, Or.inl ⟨c, hc, Column.carries_iff.mpr ⟨_, hf, rfl⟩⟩⟩
  · obtain ⟨hjoins, hsource⟩ := List.mem_filter.mp hpending
    exact resolveEdge?_isSome_iff.mpr
      ⟨_, ht, Or.inr ⟨_, hjoins, rfl, Or.inl (by simpa using hsource)⟩⟩

/-- **What an edge stands for** is the owning record of its join. -/
theorem resolveEdge?_eq_some (hv : schema.Valid)
    (hm : ∀ m ∈ schema.mirrors join, m.2.target = none) :
    schema.resolveEdge? join = some owned ↔
      owned ∈ schema.owningJoins ∧ owned.join.id = join := by
  constructor
  · exact owned_of_resolveEdge? hm
  · rintro ⟨ho, rfl⟩
    obtain ⟨found, hfound⟩ := Option.isSome_iff_exists.mp (resolveEdge?_isSome ho)
    obtain ⟨hmem, hid⟩ := owned_of_resolveEdge? hm hfound
    rw [hfound, eq_of_key_eq hv.ownerIds hmem ho hid]

theorem foreignKey?_iff (hv : schema.Valid) {c : Column} :
    schema.foreignKey? join = some (t, c) ↔
      ∃ record, ⟨t, some c, record⟩ ∈ schema.owningJoins ∧ record.id = join := by
  constructor
  · intro h
    obtain ⟨ht, hc, hcarries⟩ := foreignKey?_eq_some h
    obtain ⟨record, hf, hid⟩ := Column.carries_iff.mp hcarries
    exact ⟨record, mem_owningJoins_of_column ht hc hf, hid⟩
  · rintro ⟨record, ho, rfl⟩
    obtain ⟨ht, ⟨d, hd, hcolumn, hf⟩ | ⟨hnone, -⟩⟩ := mem_owningJoins ho
    · cases hcolumn
      exact foreignKey?_of_mem hv ht hd hf
    · cases hnone

theorem pending?_iff (hv : schema.Valid) {record : Join} :
    schema.pending? join = some (t, record) ↔
      ⟨t, none, record⟩ ∈ schema.owningJoins ∧ record.id = join := by
  constructor
  · exact owned_of_pending?
  · rintro ⟨ho, rfl⟩
    exact pending?_of_mem hv ho

/-! ## One record -/

/-- The searches for a join all find the one owning record that it has, or nothing if it has none,
and a mirror is not among what they find. -/
structure ViewsAgree (schema : Schema) (join : JoinId) : Prop where
  resolved : schema.owningJoins.filter (·.join.id = join) = (schema.resolveEdge? join).toList
  contained : schema.containsJoin join = (schema.resolveEdge? join).isSome
  foreignKey : schema.foreignKey? join =
    (schema.resolveEdge? join).bind fun o => o.column.map fun c => (o.holder, c)
  pending : schema.pending? join =
    ((schema.resolveEdge? join).filter (·.column.isNone)).map fun o => (o.holder, o.join)
  mirrored : (schema.mirrors join).length ≤ 1
  /-- A mirror is a record of a join that has an owner, on another table than the owner. -/
  elsewhere : ∀ m ∈ schema.mirrors join,
    ∃ o, schema.resolveEdge? join = some o ∧ m.1.id ≠ o.holder.id

theorem length_mirrors_le (hv : schema.Valid) : (schema.mirrors join).length ≤ 1 := by
  rw [mirrors_eq_filter]
  cases hfirst : schema.allMirrors.filter (·.2.id = join) with
  | nil => exact Nat.zero_le 1
  | cons m rest =>
      have hm : m ∈ schema.allMirrors.filter (·.2.id = join) := hfirst ▸ List.mem_cons_self
      obtain ⟨hmem, hid⟩ := List.mem_filter.mp hm
      rw [decide_eq_true_eq] at hid
      subst hid
      rw [← hfirst, filter_key hv.mirrorIds hmem]
      exact Nat.le_refl 1

theorem viewsAgree (hv : schema.Valid) (hm : ∀ m ∈ schema.mirrors join, m.2.target = none) :
    schema.ViewsAgree join where
  resolved := by
    cases hr : schema.resolveEdge? join with
    | some owned =>
        obtain ⟨ho, rfl⟩ := (resolveEdge?_eq_some hv hm).mp hr
        exact filter_key hv.ownerIds ho
    | none =>
        refine List.filter_eq_nil_iff.mpr fun o ho hid => ?_
        have hfound := (resolveEdge?_eq_some hv hm).mpr ⟨ho, by simpa using hid⟩
        rw [hr] at hfound
        cases hfound
  contained := by
    rw [Bool.eq_iff_iff, containsJoin, List.any_eq_true, Option.isSome_iff_exists]
    simp only [decide_eq_true_eq, resolveEdge?_eq_some hv hm]
  foreignKey := by
    refine Option.ext fun found => ?_
    obtain ⟨t, c⟩ := found
    simp only [foreignKey?_iff hv, Option.bind_eq_some_iff, Option.map_eq_some_iff,
      resolveEdge?_eq_some hv hm]
    constructor
    · rintro ⟨record, ho, hid⟩
      exact ⟨_, ⟨ho, hid⟩, c, rfl, rfl⟩
    · rintro ⟨⟨holder, column, record⟩, ⟨ho, hid⟩, d, hcolumn, he⟩
      cases he
      exact ⟨record, hcolumn ▸ ho, hid⟩
  pending := by
    refine Option.ext fun found => ?_
    obtain ⟨t, record⟩ := found
    simp only [pending?_iff hv, Option.map_eq_some_iff, Option.filter_eq_some_iff,
      Option.isNone_iff_eq_none, resolveEdge?_eq_some hv hm]
    constructor
    · rintro ⟨ho, hid⟩
      exact ⟨_, ⟨⟨ho, hid⟩, rfl⟩, rfl⟩
    · rintro ⟨⟨holder, column, record⟩, ⟨⟨ho, hid⟩, hcolumn⟩, he⟩
      cases he
      exact ⟨hcolumn ▸ ho, hid⟩
  mirrored := length_mirrors_le hv
  elsewhere := by
    intro m hmem
    obtain ⟨ht, hj, hid, hs⟩ := mem_mirrors.mp hmem
    have hall : m ∈ schema.allMirrors :=
      mem_allMirrors.mpr ⟨ht, List.mem_filter.mpr ⟨hj, by simpa using hs⟩⟩
    obtain ⟨o, ho, hoid, hsource⟩ := owner_of_mirror hv hall
    exact ⟨o, (resolveEdge?_eq_some hv hm).mpr ⟨ho, hoid.trans hid⟩,
      fun he => hs (hsource.trans he.symm)⟩

end Schema

/-! ## The graph -/

/-- The edge is the picture of the owning record. -/
structure OwnedJoin.ShownBy (owned : OwnedJoin) (edge : Edge) : Prop where
  id : edge.id = owned.join.id
  source : edge.source = owned.holder.id
  target : owned.join.peer? = some edge.target
  isLoop : edge.isLoop = owned.join.isSelfJoin
  pending : edge.pending = owned.column.isNone

/-- The graph has a node for each table, and between nodes an edge of its own for each owning record
with a target. -/
structure Graph.Draws (graph : Graph) (schema : Schema) : Prop where
  nodes : graph.nodes.map (·.id) = schema.tables.map (·.id)
  edges : List.Forall₂ OwnedJoin.ShownBy
    (schema.owningJoins.filter (·.join.target.isSome)) graph.edges
  edgeIds : (graph.edges.map (·.id)).Nodup
  ends : ∀ edge ∈ graph.edges,
    edge.source ∈ graph.nodes.map (·.id) ∧ edge.target ∈ graph.nodes.map (·.id)

namespace Schema

variable {schema : Schema} {owned : OwnedJoin}

/-- A record that says of itself where it is held is drawn as it is. -/
theorem shownBy_edge? {edge : Edge} (hs : owned.join.source = owned.holder.id)
    (h : owned.edge? = some edge) : owned.ShownBy edge := by
  obtain ⟨peer, hpeer, rfl⟩ := Option.map_eq_some_iff.mp h
  refine ⟨rfl, rfl, hpeer, ?_, ?_⟩
  · rw [Join.isSelfJoin, hpeer, hs]
    simp
  · rw [OwnedJoin.isConfigured]
    simp

theorem shownBy_edges {records : List OwnedJoin}
    (hs : ∀ o ∈ records, o.join.source = o.holder.id) :
    List.Forall₂ OwnedJoin.ShownBy (records.filter (·.join.target.isSome))
      (records.filterMap (·.edge?)) := by
  induction records with
  | nil => exact .nil
  | cons o rest ih =>
      rw [List.forall_mem_cons] at hs
      cases ht : o.join.target with
      | none =>
          have hedge : o.edge? = none := by rw [OwnedJoin.edge?, Join.peer?, ht]; rfl
          rw [List.filter_cons_of_neg (by simp [ht]), List.filterMap_cons_none hedge]
          exact ih hs.2
      | some target =>
          obtain ⟨edge, hedge⟩ : ∃ edge, o.edge? = some edge := by
            rw [OwnedJoin.edge?, Join.peer?, ht]
            exact ⟨_, rfl⟩
          rw [List.filter_cons_of_pos (by simp [ht]), List.filterMap_cons_some hedge]
          exact .cons (shownBy_edge? hs.1 hedge) (ih hs.2)

theorem graph_draws (hv : schema.Valid) (canvas : Canvas) (detail : DetailLevel) :
    (schema.graph canvas detail).Draws schema := by
  have hnodes : (schema.graph canvas detail).nodes.map (·.id) = schema.tables.map (·.id) := by
    rw [graph, List.map_map]
    rfl
  have hedges : List.Forall₂ OwnedJoin.ShownBy
      (schema.owningJoins.filter (·.join.target.isSome)) (schema.graph canvas detail).edges :=
    shownBy_edges fun o ho => (hv.owners o ho).source
  refine ⟨hnodes, hedges, ?_, fun edge hedge => ?_⟩
  · rw [map_eq_of_forall₂ hedges (f := (·.join.id)) fun _ _ h => h.id]
    exact hv.ownerIds.sublist (List.filter_sublist.map _)
  · obtain ⟨o, ho, hshown⟩ := exists_left hedges hedge
    have howned := (List.mem_filter.mp ho).1
    obtain ⟨target, htarget, hpeer⟩ := Option.map_eq_some_iff.mp hshown.target
    obtain ⟨peer, hfound, -⟩ := (hv.owners o howned).target target htarget
    obtain ⟨hmem, hid⟩ := mem_of_table? hfound
    rw [hnodes]
    exact ⟨List.mem_map.mpr ⟨o.holder, (mem_owningJoins howned).1, hshown.source.symm⟩,
      List.mem_map.mpr ⟨peer, hmem, hid.trans hpeer⟩⟩

/-- **All views of a join agree**, in every valid schema whose mirrors refer to no table: the edge
that is selected, the foreign key column, the pending record and the mirrors are those of the one
owning record that a join has, and the graph draws just the owning records. -/
theorem views_agree (hv : schema.validate = .ok ()) (hm : schema.MirrorsBlank) :
    (∀ join, schema.ViewsAgree join) ∧
      ∀ canvas detail, (schema.graph canvas detail).Draws schema := by
  have hvalid := validate_iff.mp hv
  exact ⟨fun join => viewsAgree hvalid hm.mirrors, graph_draws hvalid⟩

/-- Users and their posts: a post knows its user, users are to like posts, and a user is to follow
another. -/
def followedUsers : Schema :=
  let author : Join := { Join.declared ⟨"p"⟩ ⟨"u"⟩ (some ⟨"u1"⟩) .cascade .restrict with
    kind := .manyToOne }
  let users := Table.seeded ⟨"u"⟩ ⟨"u1"⟩ "User" .uuid
  let posts := (Table.seeded ⟨"p"⟩ ⟨"p1"⟩ "Post" .uuid).addColumn
    (Column.foreign ⟨"p2"⟩ ⟨"p"⟩ "userId" .uuid author)
  ((((empty.append users).append posts).addMirror author).declare
    (.declared ⟨"u"⟩ ⟨"p"⟩ (some ⟨"p1"⟩) .setNull .restrict)).declare
    (.declared ⟨"u"⟩ ⟨"u"⟩ (some ⟨"u1"⟩) .setNull .restrict)

/-- A join with a column, a pending one and one of a table with itself. -/
theorem followedUsers_views : followedUsers.validate = .ok () ∧ followedUsers.MirrorsBlank ∧
    followedUsers.owningJoins.map (·.join.id) = [⟨"u->p"⟩, ⟨"u->u"⟩, ⟨"p->u"⟩] ∧
    (∀ join, followedUsers.ViewsAgree join) ∧
    ∀ canvas detail, (followedUsers.graph canvas detail).Draws followedUsers := by
  have hvalidate : followedUsers.validate = .ok () := ok_of_toOption (by decide +kernel)
  have hblank : followedUsers.MirrorsBlank := by
    unfold MirrorsBlank
    decide +kernel
  exact ⟨hvalidate, hblank, by decide +kernel, views_agree hvalidate hblank⟩

end Schema

end ErModel
