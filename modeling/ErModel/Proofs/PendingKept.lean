import ErModel.Proofs.Complete
import ErModel.Proofs.ForeignKeys

/-!
# Pending joins through an edited text

A pending join has no form in a text, so an edited text does not say whether it is still wanted. It is
kept if both its tables are there. What comes before it are the foreign keys of the text: one that has
not been there before gets the first free id between its tables, and the ids of pending joins are free
for it. If that is the id of a pending join, the foreign key takes its place. So a join that waits
between two tables is kept just as long as no new foreign key goes the same way.
-/

namespace ErModel

namespace Schema

/-- The foreign keys of a compiled schema that keep no id, as the tables that they are between, under
the ids that these have in the end. -/
def newKeys (previous parsed : Schema) : List (TableId × TableId) :=
  (((Renaming.byName previous parsed).apply parsed).owningJoins.filterMap
    (JoinIds.waits? previous)).map (·.2)

/-- A pending join that refers to `target` is pending in the schema: under its id, in its table and
towards the same table, and no foreign key has its id. It refers to its column if that is there. -/
def KeepsPending (next : Schema) (o : OwnedJoin) (target : JoinTarget) : Prop :=
  next.foreignKey? o.join.id = none ∧ ∃ holder peer back,
    next.pending? o.join.id = some (holder, { o.join with target := some back }) ∧
    holder.id = o.holder.id ∧ next.table? target.table = some peer ∧ back.table = target.table ∧
    ∀ column, target.column = some column → (peer.column? column).isSome = true →
      back.column = some column

/-- The id of a pending join has been given to a new foreign key, as one between its tables, and
there is no pending join of that id. -/
def TakesOver (previous parsed next : Schema) (o : OwnedJoin) : Prop :=
  next.pending? o.join.id = none ∧ ∃ source target n,
    (source, target) ∈ newKeys previous parsed ∧ o.join.id = .nth source target n ∧
    ∃ holder key record, next.foreignKey? o.join.id = some (holder, key) ∧
      key.foreignKey = some record ∧ holder.id = source ∧ record.peer? = some target

variable {previous parsed next : Schema} {ids : IdSupply} {n : Nat} {o p : OwnedJoin}

/-- What reconciling gives where the compiled schema has no pending join. -/
structure Carried (previous parsed next : Schema) : Prop where
  valid : next.Valid
  renamed : next = ((newIds previous parsed).apply parsed).carrying
    (previous.pendingJoins.filterMap ((newIds previous parsed).apply parsed).carried?)
  pending : parsed.pendingJoins = []

theorem Carried.sameTables (hnext : Carried previous parsed next) :
    next.SameTables ((newIds previous parsed).apply parsed) :=
  hnext.renamed ▸ sameTables_carrying _ _

/-! ## Foreign keys that get the id of a pending join -/

/-- A pending join has no id that a foreign key keeps. -/
theorem kept?_ne_pending (hv : previous.Valid) (hp : p ∈ previous.owningJoins)
    (hpending : p.column = none) (o : OwnedJoin) : previous.kept? o ≠ some p.join.id := by
  intro hkept
  obtain ⟨_, column, oldTable, oldColumn, old, -, -, htable, hcolumn, hf, -, hid⟩ :=
    kept?_eq_some.mp hkept
  have hsame := eq_of_key_eq hv.ownerIds (mem_owningJoins_of_column (mem_of_table? htable).1
    (List.mem_of_find?_eq_some hcolumn) hf) hp hid
  rw [← hsame] at hpending
  cases hpending

section

variable (hv : previous.Valid) (h : parsed.Compiled ids n) (hf : parsed.FreshFor previous)
include hv h hf

theorem mem_renamed (ho : o ∈ parsed.owningJoins) : (renamedIds previous parsed).onOwned o ∈
    ((renamedIds previous parsed).apply parsed).owningJoins := by
  rw [owningJoins_relabel h.valid (renamedIds_faithful hv h hf).tables]
  exact List.mem_map.mpr ⟨o, ho, rfl⟩

/-- A foreign key that gets the id of a pending join is new, and the id is one between its tables. -/
theorem newKey_of_pendingId (hp : p ∈ previous.owningJoins) (hpending : p.column = none)
    (ho : o ∈ parsed.owningJoins) (hid : (newIds previous parsed).join o.join.id = p.join.id) :
    ∃ target k, ((newIds previous parsed).table o.holder.id, target) ∈ newKeys previous parsed ∧
      p.join.id = .nth ((newIds previous parsed).table o.holder.id) target k ∧
      ((newIds previous parsed).record o.join).peer? = some target := by
  have hjoins := newIds_joins hv h hf
  have hmem := mem_renamed hv h hf ho
  have hnone : previous.kept? ((renamedIds previous parsed).onOwned o) = none := by
    cases hkept : previous.kept? ((renamedIds previous parsed).onOwned o) with
    | none => rfl
    | some id =>
        have hsame : id = p.join.id :=
          (hjoins.kept _ hmem id hkept).symm.trans ((newIds_join h _).symm.trans hid)
        exact absurd (hsame ▸ hkept) (kept?_ne_pending hv hp hpending _)
  have hplaced := placed_relabel h.valid h.placed (renamedIds_faithful hv h hf).tables
  have htarget := hplaced.targets (_, _) (owners_eq _ ▸ List.mem_map.mpr ⟨_, hmem, rfl⟩)
  obtain ⟨target, htarget⟩ := Option.isSome_iff_exists.mp htarget
  have hpeer : ((renamedIds previous parsed).onOwned o).join.peer? = some target.table := by
    rw [Join.peer?, htarget]
    rfl
  obtain ⟨k, hk⟩ := hjoins.waited _ hmem target.table hnone hpeer
  refine ⟨target.table, k, ?_, hid.symm.trans ((newIds_join h _).trans hk), hpeer⟩
  have hwaits : JoinIds.waits? previous ((renamedIds previous parsed).onOwned o) =
      some (o.join.id, (newIds previous parsed).table o.holder.id, target.table) := by
    rw [JoinIds.waits?, hnone, hpeer]
    rfl
  rw [newKeys, byName_apply h]
  exact List.mem_map.mpr ⟨_, List.mem_filterMap.mpr ⟨_, hmem, hwaits⟩, rfl⟩

/-- As many new foreign keys as go between two tables, so many of the ids between these are taken. -/
theorem taken_of_lt_count {source target : TableId} {k : Nat}
    (hk : k < (newKeys previous parsed).count (source, target)) :
    ∃ o ∈ parsed.owningJoins, (newIds previous parsed).join o.join.id = .nth source target k := by
  rw [newKeys, byName_apply h] at hk
  obtain ⟨owned, howned, hid⟩ := (newIds_joins hv h hf).taken source target k hk
  rw [owningJoins_relabel h.valid (renamedIds_faithful hv h hf).tables] at howned
  obtain ⟨o, ho, rfl⟩ := List.mem_map.mp howned
  exact ⟨o, ho, (newIds_join h _).trans hid⟩

theorem exists_of_containsJoin {id : JoinId}
    (hcontains : ((newIds previous parsed).apply parsed).containsJoin id = true) :
    ∃ o ∈ parsed.owningJoins, (newIds previous parsed).join o.join.id = id := by
  obtain ⟨owned, howned, hid⟩ := List.any_eq_true.mp hcontains
  rw [owningJoins_relabel h.valid (newIds_tells hv h hf)] at howned
  obtain ⟨o, ho, rfl⟩ := List.mem_map.mp howned
  exact ⟨o, ho, of_decide_eq_true hid⟩

/-! ## What becomes of a pending join -/

/-- A table whose name is in the text is there again under its id. -/
theorem table?_of_name {t : Table} (ht : t ∈ previous.tables)
    (hname : t.name ∈ parsed.tables.map (·.name)) :
    (((newIds previous parsed).apply parsed).table? t.id).isSome = true := by
  obtain ⟨u, hu, hun⟩ := List.mem_map.mp hname
  have hid : (newIds previous parsed).table u.id = t.id := by
    rw [newIds_table h hu, hun, show previous.tableNamed? t.name = some t from find?_key hv.names ht]
    rfl
  rw [← hid, table?_relabel h.valid.ids (newIds_tells hv h hf) hu]
  rfl

/-- A foreign key that gets the id of a pending join takes its place. -/
theorem Carried.takesOver (hnext : Carried previous parsed next) (hp : p ∈ previous.owningJoins)
    (hpending : p.column = none) (ho : o ∈ parsed.owningJoins)
    (hid : (newIds previous parsed).join o.join.id = p.join.id) :
    TakesOver previous parsed next p := by
  obtain ⟨target, k, hnew, hnth, hpeer⟩ := newKey_of_pendingId hv h hf hp hpending ho hid
  obtain ⟨c, hc, -, hcf⟩ := carried_of_none_pending hnext.pending ho
  -- the table of the foreign key is there under its new id, with its columns
  have hsame : ((newIds previous parsed).apply parsed).SameTables next := hnext.sameTables.symm
  obtain ⟨u, hu, he⟩ := hsame.mem (List.mem_map.mpr ⟨o.holder, (mem_owningJoins ho).1, rfl⟩)
  have hcolumns : u.columns = o.holder.columns.map (newIds previous parsed).onColumn :=
    Table.columns_of_withoutJoins he
  have hkey : (newIds previous parsed).onColumn c ∈ u.columns :=
    hcolumns ▸ List.mem_map.mpr ⟨c, hc, rfl⟩
  have hrecord : ((newIds previous parsed).onColumn c).foreignKey =
      some ((newIds previous parsed).record o.join) :=
    congrArg (Option.map (newIds previous parsed).record) hcf
  have hfound := foreignKey?_of_mem hnext.valid hu hkey hrecord
  rw [show ((newIds previous parsed).record o.join).id = p.join.id from hid] at hfound
  have hholder : u.id = (newIds previous parsed).table o.holder.id := Table.id_of_withoutJoins he
  refine ⟨?_, _, target, k, hnew, hnth, u, _, _, hfound, hrecord, hholder, hpeer⟩
  cases hleft : next.pending? p.join.id with
  | none => rfl
  | some found =>
      rw [foreignKey?_of_pending? hnext.valid hleft] at hfound
      cases hfound

/-- A pending join whose id is free and whose tables are there is pending again. -/
theorem Carried.keepsPending (hnext : Carried previous parsed next) (hp : p ∈ previous.owningJoins)
    (hpending : p.column = none) {target : JoinTarget} (htarget : p.join.target = some target)
    (hsource : (((newIds previous parsed).apply parsed).table? p.holder.id).isSome = true)
    (hpeer : (((newIds previous parsed).apply parsed).table? target.table).isSome = true)
    (hfree : ((newIds previous parsed).apply parsed).containsJoin p.join.id = false) :
    next.KeepsPending p target := by
  obtain ⟨peer, hpeer⟩ := Option.isSome_iff_exists.mp hpeer
  have hpsource : p.join.source = p.holder.id := (hv.owners p hp).source
  have hback : ((newIds previous parsed).apply parsed).carried? p.join =
      some { p.join with target := some (retarget target peer) } := by
    rw [carried?, if_neg (by rw [hfree]; simp), htarget, Option.bind_some,
      if_pos (hpsource ▸ hsource), hpeer, Option.map_some]
  have hperm := pendingJoins_reconciled hv h hf hnext.pending hnext.renamed
  have hmem := hperm.mem_iff.mpr (List.mem_filterMap.mpr
    ⟨p.join, mem_pendingJoins.mpr ⟨p.holder, hpending ▸ hp⟩, hback⟩)
  obtain ⟨holder, howned⟩ := mem_pendingJoins.mp hmem
  have hfound := pending?_of_mem hnext.valid howned
  have htables := hnext.sameTables.table? target.table
  rw [hpeer, Option.map_some] at htables
  obtain ⟨found, hfoundPeer, he⟩ := Option.map_eq_some_iff.mp htables
  refine ⟨foreignKey?_of_pending? hnext.valid hfound, holder, found, retarget target peer, hfound,
    ?_, hfoundPeer, retarget_table target peer, fun column hcolumn hthere => ?_⟩
  · exact (hnext.valid.owners _ howned).source.symm.trans hpsource
  · have hthere : (peer.column? column).isSome = true := by
      rw [Table.column?, ← Table.columns_of_withoutJoins he]
      exact hthere
    rw [retarget, hcolumn]
    dsimp only
    rw [if_pos hthere, hcolumn]

end

/-! ## Reconciling -/

/-- A pending join of a schema whose two tables have their names in a compiled schema. -/
structure PendingThrough (previous parsed : Schema) (o : OwnedJoin) (target : JoinTarget) : Prop where
  owned : o ∈ previous.owningJoins
  pending : o.column = none
  refers : o.join.target = some target
  source_named : o.holder.name ∈ parsed.tables.map (·.name)
  target_named : ∃ peer ∈ previous.tables, peer.id = target.table ∧
    peer.name ∈ parsed.tables.map (·.name)

/-- **An edited text keeps every pending join between its tables, unless a new foreign key takes it
over.** The foreign key then has the id of the pending join as an id between its own two tables. For
certain it comes to that where more new foreign keys go between two tables than there are ids before
this one. So, where the ids of tables are plain, a join that waits under the id of its two tables is
kept just if no new foreign key goes from the one to the other. -/
theorem pending_kept_iff {source : String} {rest : IdSupply} (hv : previous.validate = .ok ())
    (hc : Source.compile source ids = (.ok parsed, rest)) (hf : parsed.FreshFor previous)
    (canvas : Canvas) (step : Binary64) :
    ∃ next placed, previous.reconcile canvas parsed step = .ok (next, placed) ∧
      ∀ o target, PendingThrough previous parsed o target →
        (next.KeepsPending o target ↔ ¬ TakesOver previous parsed next o) ∧
        (∀ a b n, o.join.id = .nth a b n → n < (newKeys previous parsed).count (a, b) →
          TakesOver previous parsed next o) ∧
        ((∀ t ∈ next.tables, PlainText t.id.text) →
          o.join.id = .between o.holder.id target.table →
          (next.KeepsPending o target ↔ (o.holder.id, target.table) ∉ newKeys previous parsed)) := by
  have hvalid := validate_iff.mp hv
  obtain ⟨n, h⟩ := Source.compile_compiled hc
  obtain ⟨next, placed, hr⟩ := reconciled hvalid h hf canvas step
  have hnext : Carried previous parsed next :=
    ⟨(placed_reconcile h.valid h.placed hr.result).1, hr.renamed, Source.compile_pendingJoins hc⟩
  refine ⟨next, placed, hr.result, fun o target hpt => ?_⟩
  obtain ⟨ho, hpending, htarget, hsource, peer, hpeer, hpeerId, hnamed⟩ := hpt
  have hholder := table?_of_name hvalid h hf (mem_owningJoins ho).1 hsource
  have htable := hpeerId ▸ table?_of_name hvalid h hf hpeer hnamed
  have hiff : next.KeepsPending o target ↔ ¬ TakesOver previous parsed next o := by
    refine ⟨fun hkeeps htaken => ?_, fun hnot => ?_⟩
    · obtain ⟨-, a, b, k, -, -, holder, key, record, hfound, -⟩ := htaken
      cases hkeeps.1.symm.trans hfound
    · refine hnext.keepsPending hvalid h hf ho hpending htarget hholder htable ?_
      refine eq_false_of_ne_true fun hcontains => hnot ?_
      obtain ⟨p, hp, hid⟩ := exists_of_containsJoin hvalid h hf hcontains
      exact hnext.takesOver hvalid h hf ho hpending hp hid
  have htaken : ∀ a b n, o.join.id = .nth a b n → n < (newKeys previous parsed).count (a, b) →
      TakesOver previous parsed next o := by
    intro a b k hid hk
    obtain ⟨p, hp, hpid⟩ := taken_of_lt_count hvalid h hf hk
    exact hnext.takesOver hvalid h hf ho hpending hp (hpid.trans hid.symm)
  refine ⟨hiff, htaken, fun hplain hid => hiff.trans (not_congr ⟨?_, fun hmem => ?_⟩)⟩
  · rintro ⟨-, a, b, k, hmem, hnth, holder, key, record, hfound, hrecord, rfl, hb⟩
    -- the ends of both joins are tables, so the id tells that they are the same
    have hends : ∀ {id}, (((newIds previous parsed).apply parsed).table? id).isSome = true →
        PlainText id.text := by
      intro id hthere
      rw [← Option.isSome_map (f := Table.withoutJoins), ← hnext.sameTables.table?,
        Option.isSome_map] at hthere
      obtain ⟨t, ht⟩ := Option.isSome_iff_exists.mp hthere
      exact (mem_of_table? ht).2 ▸ hplain t (mem_of_table? ht).1
    obtain ⟨hin, hkey, -⟩ := foreignKey?_eq_some hfound
    obtain ⟨t, ht, rfl⟩ := Option.map_eq_some_iff.mp hb
    obtain ⟨u, hu, -⟩ :=
      (hnext.valid.owners _ (mem_owningJoins_of_column hin hkey hrecord)).target t ht
    have hbPlain : PlainText t.table.text := (mem_of_table? hu).2 ▸ hplain u (mem_of_table? hu).1
    obtain ⟨hsource, htarget, -⟩ := JoinId.nth_plain_inj (hends hholder) (hends htable)
      (hplain holder hin) hbPlain (n := 0) (hid.symm.trans hnth)
    rw [hsource, htarget]
    exact hmem
  · exact htaken _ _ 0 hid (List.count_pos_iff.mpr hmem)

theorem validate_usersWithPosts : usersWithPosts.validate = .ok () :=
  ok_of_toOption (by decide +kernel)

/-- What is known of the pending join of `usersWithPosts` for a text with both its tables. -/
theorem pendingThrough_usersWithPosts (hnames : parsed.tables.map (·.name) = ["User", "Post"]) :
    ∃ o target, PendingThrough usersWithPosts parsed o target ∧
      o.join.id = .between o.holder.id target.table ∧
      (o.holder.id, target.table) = (⟨"b000000000000"⟩, ⟨"a000000000000"⟩) := by
  have howned : usersWithPosts.owningJoins.map (fun o => (o.column, o.join.target, o.holder.name,
      o.holder.id, o.join.id)) = [(none, some ⟨⟨"a000000000000"⟩, some ⟨"a000000000001"⟩⟩, "Post",
        ⟨"b000000000000"⟩, .between ⟨"b000000000000"⟩ ⟨"a000000000000"⟩)] := by decide +kernel
  have htables : usersWithPosts.tables.any (fun t => t.id = ⟨"a000000000000"⟩ && t.name = "User") =
      true := by decide +kernel
  obtain ⟨o, ho, he⟩ := List.map_eq_singleton_iff.mp howned
  obtain ⟨hcolumn, htarget, hname, hholder, hid⟩ :
      _ ∧ _ ∧ _ ∧ _ ∧ _ := by simpa only [Prod.mk.injEq] using he
  obtain ⟨users, husers, hfound⟩ := List.any_eq_true.mp htables
  simp only [Bool.and_eq_true, decide_eq_true_eq] at hfound
  refine ⟨o, _, ⟨ho ▸ List.mem_singleton_self o, hcolumn, htarget, ?_, users, husers, hfound.1, ?_⟩,
    hid.trans (hholder ▸ rfl), by rw [hholder]⟩
  · simp [hnames, hname]
  · simp [hnames, hfound.2]

theorem freshFor_usersWithPosts (hd : parsed.DrawnFrom ⟨"d", 0⟩ n) :
    parsed.FreshFor usersWithPosts := by
  refine IdSupply.FreshFor.of_drawn (fun k hk => ?_) hd
  have hfirst : ∀ text ∈ usersWithPosts.collect Table.idTexts, text.toList.head? ≠ some 'd' := by
    decide +kernel
  refine hfirst _ hk ?_
  rw [IdSupply.text, String.toList_append]
  rfl

/-- A text with the two tables of `usersWithPosts`, and a foreign key from users to posts. -/
def bestPostSource : String :=
  "entity User \x7b id uuid pk best uuid fk -> Post.id \x7d entity Post \x7b id uuid pk \x7d"

/-- A foreign key the other way leaves the pending join from posts to users pending. -/
theorem usersWithPosts_kept : usersWithPosts.validate = .ok () ∧ ∃ parsed rest next placed o target,
    Source.compile bestPostSource ⟨"d", 0⟩ = (.ok parsed, rest) ∧
    parsed.FreshFor usersWithPosts ∧
    usersWithPosts.reconcile .empty parsed (.zero false) = .ok (next, placed) ∧
    PendingThrough usersWithPosts parsed o target ∧
    newKeys usersWithPosts parsed = [(target.table, o.holder.id)] ∧
    next.KeepsPending o target := by
  have hcompiles : (Source.compile bestPostSource ⟨"d", 0⟩).1.toOption.map (fun parsed =>
      (parsed.tables.map (·.name), newKeys usersWithPosts parsed)) =
      some (["User", "Post"], [(⟨"a000000000000"⟩, ⟨"b000000000000"⟩)]) := by decide +kernel
  have hplain : (Source.compile bestPostSource ⟨"d", 0⟩).1.toOption.all (fun parsed =>
      (usersWithPosts.reconcile .empty parsed (.zero false)).toOption.all fun built =>
        built.1.tables.all fun t => PlainText t.id.text) = true := by decide +kernel
  obtain ⟨parsed, hparsed, hfacts⟩ := Option.map_eq_some_iff.mp hcompiles
  obtain ⟨hnames, hkeys⟩ := Prod.mk.inj hfacts
  have hcompile : Source.compile bestPostSource ⟨"d", 0⟩ = (.ok parsed, _) :=
    Prod.ext (ok_of_toOption hparsed) rfl
  obtain ⟨n, hcompiled⟩ := Source.compile_compiled hcompile
  have hfresh := freshFor_usersWithPosts hcompiled.drawn
  obtain ⟨o, target, hthrough, hid, hends⟩ := pendingThrough_usersWithPosts hnames
  obtain ⟨next, placed, hresult, hall⟩ :=
    pending_kept_iff validate_usersWithPosts hcompile hfresh .empty (.zero false)
  obtain ⟨hholder, htarget⟩ := Prod.mk.inj hends
  rw [hparsed, Option.all_some, hresult] at hplain
  refine ⟨validate_usersWithPosts, parsed, _, next, placed, o, target, hcompile, hfresh, hresult,
    hthrough, by rw [hkeys, hholder, htarget],
    ((hall o target hthrough).2.2 (fun t ht => ?_) hid).mpr ?_⟩
  · simpa using List.all_eq_true.mp hplain t ht
  · rw [hkeys, hends]
    decide

/-- A text with the two tables of `usersWithPosts`, and a foreign key from posts to users. -/
def authoredPostsSource : String :=
  "entity User \x7b id uuid pk \x7d entity Post \x7b id uuid pk author uuid fk -> User.id \x7d"

/-- A foreign key the same way takes over the pending join from posts to users. -/
theorem usersWithPosts_overtaken : usersWithPosts.validate = .ok () ∧
    ∃ parsed rest next placed o target,
      Source.compile authoredPostsSource ⟨"d", 0⟩ = (.ok parsed, rest) ∧
      parsed.FreshFor usersWithPosts ∧
      usersWithPosts.reconcile .empty parsed (.zero false) = .ok (next, placed) ∧
      PendingThrough usersWithPosts parsed o target ∧
      ¬ next.KeepsPending o target ∧
      next.pending? o.join.id = none ∧
      (next.foreignKey? o.join.id).map (fun found => (found.1.name, found.2.name)) =
        some ("Post", "author") := by
  let id : JoinId := .between ⟨"b000000000000"⟩ ⟨"a000000000000"⟩
  have hbuilds : (Source.compile authoredPostsSource ⟨"d", 0⟩).1.toOption.bind (fun parsed =>
      (usersWithPosts.reconcile .empty parsed (.zero false)).toOption.map fun built =>
        (parsed.tables.map (·.name), built.1.pending? id,
          (built.1.foreignKey? id).map fun found => (found.1.name, found.2.name))) =
      some (["User", "Post"], none, some ("Post", "author")) := by decide +kernel
  obtain ⟨parsed, hparsed, hbuilt⟩ := Option.bind_eq_some_iff.mp hbuilds
  obtain ⟨⟨next, placed⟩, hresult, hfacts⟩ := Option.map_eq_some_iff.mp hbuilt
  obtain ⟨hnames, hpending, hfound⟩ : _ ∧ _ ∧ _ := by simpa only [Prod.mk.injEq] using hfacts
  have hcompile : Source.compile authoredPostsSource ⟨"d", 0⟩ = (.ok parsed, _) :=
    Prod.ext (ok_of_toOption hparsed) rfl
  obtain ⟨n, hcompiled⟩ := Source.compile_compiled hcompile
  obtain ⟨o, target, hthrough, hid, hends⟩ := pendingThrough_usersWithPosts hnames
  obtain ⟨hholder, htarget⟩ := Prod.mk.inj hends
  have hid : o.join.id = id := by rw [hid, hholder, htarget]
  rw [← hid] at hpending hfound
  refine ⟨validate_usersWithPosts, parsed, _, next, placed, o, target, hcompile,
    freshFor_usersWithPosts hcompiled.drawn, ok_of_toOption hresult, hthrough, ?_, hpending, hfound⟩
  rintro ⟨-, holder, peer, back, hkept, -⟩
  rw [hpending] at hkept
  cases hkept

end Schema

end ErModel
