import ErModel.Error
import ErModel.Proofs.Configured

/-!
# Edits that break a schema

An edit that deletes or configures is refused with a violation in few cases, and each of them can
be told from the schema and the edit. Deleting drops joins with their columns, or one column, and
does not look at what refers to these: it fails if a join that stays does. A junction table fails
likewise. A foreign key fails if its column counts by itself and would be no number any more, or if
it would be the only column of its table.
-/

namespace ErModel

/-- The edit is refused because what it has built is not valid. -/
def Violates {α : Type} (r : Except EditError α) : Prop := ∃ v, r = .error (.violation v)

theorem violates_bind_pure {α β : Type} {x : Except EditError α} {f : α → β} :
    Violates (x >>= fun a => pure (f a)) ↔ Violates x := by
  cases x with
  | ok a => exact iff_of_false (fun ⟨_, h⟩ => nomatch h) (fun ⟨_, h⟩ => nomatch h)
  | error e =>
      refine exists_congr fun v => ⟨fun h => ?_, fun h => ?_⟩ <;>
        (cases h; rfl)

namespace Schema

variable {schema : Schema}

theorem violates_settle : Violates schema.settle ↔ ¬ schema.Valid := by
  rw [← validate_iff]
  unfold settle
  cases schema.validate with
  | ok u => exact iff_of_false (fun ⟨_, h⟩ => nomatch h) (not_not_intro rfl)
  | error v => exact iff_of_true ⟨v, rfl⟩ nofun

theorem violates_deleteTable (hv : schema.Valid) {table : TableId} :
    Violates (schema.deleteTable table) ↔
      (schema.table? table).isSome = true ∧ schema.Orphans (schema.joinsTouching table) := by
  have hsettle : Violates (schema.withoutTable table).settle ↔
      schema.Orphans (schema.joinsTouching table) := by
    rw [violates_settle, withoutTable_valid_iff hv, Classical.not_not]
  rw [← hsettle, Option.isSome_iff_exists]
  constructor
  · rintro ⟨v, hr⟩
    obtain ⟨t, ht, hr⟩ := (requireTable_bind_iff (Or.inr ⟨v, rfl⟩)).mp hr
    exact ⟨⟨t, ht⟩, v, hr⟩
  · rintro ⟨⟨t, ht⟩, v, hr⟩
    exact ⟨v, (requireTable_bind_iff (Or.inr ⟨v, rfl⟩)).mpr ⟨t, ht, hr⟩⟩

/-- Another join refers to the column. -/
def RefersOtherwise (schema : Schema) (table : TableId) (column : Column) : Prop :=
  ∃ o ∈ schema.owningJoins, column.carries o.join.id = false ∧
    o.join.target = some ⟨table, some column.id⟩

theorem violates_deleteColumn (hv : schema.Valid) {table : TableId} {column : ColumnId} :
    Violates (schema.deleteColumn table column) ↔ ∃ t c, schema.table? table = some t ∧
      t.column? column = some c ∧ c.primaryKey = false ∧ schema.RefersOtherwise table c := by
  have hsettle : ∀ {t c}, schema.table? table = some t → t.column? column = some c →
      c.primaryKey = false → (Violates (settle ((schema.stripAll
        (c.foreignKey.map (·.id)).toList).modifyTable table fun t =>
          { t with columns := t.columns.filter (·.id ≠ column) })) ↔
            schema.RefersOtherwise table c) := by
    intro t c ht hc hp
    obtain ⟨hmem, rfl⟩ := mem_of_table? ht
    obtain rfl : c.id = column := by simpa using List.find?_some hc
    have hwithout := withoutColumn_valid_iff hv hmem (List.mem_of_find?_eq_some hc) hp
    rw [violates_settle]
    exact (not_congr hwithout).trans Classical.not_not
  constructor
  · rintro ⟨v, hr⟩
    obtain ⟨t, c, ht, hc, hp, hr⟩ := (deleteColumn_iff (Or.inr ⟨v, rfl⟩)).mp hr
    exact ⟨t, c, ht, hc, hp, (hsettle ht hc hp).mp ⟨v, hr⟩⟩
  · rintro ⟨t, c, ht, hc, hp, hrefers⟩
    obtain ⟨v, hr⟩ := (hsettle ht hc hp).mpr hrefers
    exact ⟨v, (deleteColumn_iff (Or.inr ⟨v, rfl⟩)).mpr ⟨t, c, ht, hc, hp, hr⟩⟩

/-- Only a join that a column carries orphans another. -/
theorem containsJoin_of_orphans {join : JoinId} (h : schema.Orphans [join]) :
    schema.containsJoin join = true := by
  obtain ⟨_, -, -, _, -, t, ht, -, c, hc, -, hgoes⟩ := h
  simp only [Column.goesWith, Bool.and_eq_true, List.any_cons, List.any_nil, Bool.or_false,
    Column.carries_iff] at hgoes
  obtain ⟨-, record, hf, hid⟩ := hgoes
  exact List.any_eq_true.mpr ⟨_, mem_owningJoins_of_column ht hc hf, decide_eq_true hid⟩

theorem violates_deleteJoin (hv : schema.Valid) {join : JoinId} :
    Violates (schema.deleteJoin join) ↔ schema.Orphans [join] := by
  have hsettle : Violates (settle (schema.strip join)) ↔ schema.Orphans [join] := by
    have hstrip := stripAll_valid_iff hv [join]
    rw [violates_settle]
    exact (not_congr hstrip).trans Classical.not_not
  unfold deleteJoin
  split
  · rename_i hunknown
    refine iff_of_false (fun ⟨v, h⟩ => by cases h) fun h => ?_
    rw [containsJoin_of_orphans h] at hunknown
    exact Bool.false_ne_true hunknown
  · exact hsettle

/-- The junction table that is to replace the join can be made, and refers to the column of the
join, or another join does. -/
def JunctionBreaks (schema : Schema) (join : JoinId) (declaring : TableId) (config : JoinConfig) :
    Prop :=
  ∃ a b aKey bKey, schema.table? declaring = some a ∧ schema.table? config.target.table = some b ∧
    a.junctionKey? config.joinColumn = some aKey ∧
    b.junctionKey? config.inverseColumn = some bKey ∧
    schema.tableNamed? (junctionName config a b) = none ∧
    (schema.Orphans [join] ∨ schema.Loses [join] ⟨a.id, some aKey.id⟩ ∨
      schema.Loses [join] ⟨b.id, some bKey.id⟩)

theorem violates_synthesizeJunction (hv : schema.Valid) {ids : IdSupply}
    (hunused : ids.UnusedIn schema) {join : JoinId} {declaring : TableId} {config : JoinConfig} :
    Violates (schema.synthesizeJunction ids join declaring config) ↔
      schema.JunctionBreaks join declaring config := by
  have hsettle : ∀ {a b aKey bKey}, schema.table? declaring = some a →
      schema.table? config.target.table = some b → a.junctionKey? config.joinColumn = some aKey →
      b.junctionKey? config.inverseColumn = some bKey →
      schema.tableNamed? (junctionName config a b) = none →
      (Violates ((schema.withJunction join a b
        (junctionBetween ids config a b aKey bKey)).settle >>= fun next =>
          pure (next, ids.tableId 0)) ↔
        schema.Orphans [join] ∨ schema.Loses [join] ⟨a.id, some aKey.id⟩ ∨
          schema.Loses [join] ⟨b.id, some bKey.id⟩) := by
    intro a b aKey bKey ha hb haKey hbKey hname
    obtain ⟨-, rfl⟩ := mem_of_table? ha
    obtain ⟨-, hid⟩ := mem_of_table? hb
    rw [violates_bind_pure, violates_settle,
      withJunction_valid_iff hv hunused ha (hid ▸ hb) haKey hbKey hname, Classical.not_not]
  constructor
  · rintro ⟨v, hr⟩
    obtain ⟨a, b, aKey, bKey, ha, hb, haKey, hbKey, hname, hr⟩ :=
      (synthesizeJunction_iff (Or.inr ⟨v, rfl⟩)).mp hr
    exact ⟨a, b, aKey, bKey, ha, hb, haKey, hbKey, hname,
      (hsettle ha hb haKey hbKey hname).mp ⟨v, hr⟩⟩
  · rintro ⟨a, b, aKey, bKey, ha, hb, haKey, hbKey, hname, hbreaks⟩
    obtain ⟨v, hr⟩ := (hsettle ha hb haKey hbKey hname).mpr hbreaks
    exact ⟨v, (synthesizeJunction_iff (Or.inr ⟨v, rfl⟩)).mpr
      ⟨a, b, aKey, bKey, ha, hb, haKey, hbKey, hname, hr⟩⟩

/-- There is a column for the foreign key to refer to, and none that can be the foreign key. -/
def ForeignKeyBreaks (schema : Schema) (join : JoinId) (declaring : TableId) (config : JoinConfig) :
    Prop :=
  ∃ holder referenced key, schema.configuredEnds join config declaring = (holder, referenced.id) ∧
    schema.table? referenced.id = some referenced ∧ config.key? referenced = some key ∧
    ¬ schema.TakesForeignKey join holder key.dataType

/-- All that the choice names exists, and what is built of it breaks the schema. -/
def ChoiceBreaks (schema : Schema) (join : JoinId) (config : JoinConfig) : Prop :=
  ∃ chosen declaring, schema.table? config.target.table = some chosen ∧
    (∀ c, config.target.column = some c → (chosen.column? c).isSome = true) ∧
    schema.declaring? join = some declaring ∧
    (config.kind = .manyToMany ∧ schema.JunctionBreaks join declaring config ∨
      config.kind ≠ .manyToMany ∧ schema.ForeignKeyBreaks join declaring config)

theorem violates_configureJoin (hv : schema.Valid) {ids : IdSupply}
    (hunused : ids.UnusedIn schema) {join : JoinId} {config : JoinConfig} :
    Violates (schema.configureJoin ids join config) ↔ schema.ChoiceBreaks join config := by
  have hjunction : ∀ {declaring},
      Violates (schema.synthesizeJunction ids join declaring config >>= fun built =>
        pure (built.1, Configured.junction built.2)) ↔
          schema.JunctionBreaks join declaring config := fun {declaring} =>
    violates_bind_pure.trans (violates_synthesizeJunction hv hunused)
  have hsettle : ∀ {declaring holder referenced key},
      (schema.table? config.target.table).isSome = true →
      schema.declaring? join = some declaring → config.kind ≠ .manyToMany →
      schema.configuredEnds join config declaring = (holder, referenced.id) →
      schema.table? referenced.id = some referenced → config.key? referenced = some key →
      (Violates ((schema.withForeignKey ids join config holder referenced key).1.settle >>=
        fun next => pure (next, Configured.foreignKey holder
          (schema.withForeignKey ids join config holder referenced key).2)) ↔
        ¬ schema.TakesForeignKey join holder key.dataType) := by
    intro declaring holder referenced key hchosen hdeclaring hkind hends hreferenced hkey
    obtain ⟨hs, hfk⟩ := configuredEnds_holder hchosen hdeclaring hends
    rw [violates_bind_pure, violates_settle,
      withForeignKey_valid_iff hv hunused.texts hkind hreferenced hkey hs hfk]
  constructor
  · rintro ⟨v, hr⟩
    obtain ⟨chosen, declaring, hchosen, hcolumn, hdeclaring, hbuilt⟩ :=
      (configureJoin_iff (Or.inr ⟨v, rfl⟩)).mp hr
    refine ⟨chosen, declaring, hchosen, hcolumn, hdeclaring, ?_⟩
    rcases hbuilt with ⟨hkind, hr⟩ | ⟨hkind, holder, referenced, key, hends, hpeer, hkey, hr⟩
    · exact Or.inl ⟨hkind, hjunction.mp ⟨v, hr⟩⟩
    · exact Or.inr ⟨hkind, holder, referenced, key, hends, hpeer, hkey,
        (hsettle (hchosen ▸ rfl) hdeclaring hkind hends hpeer hkey).mp ⟨v, hr⟩⟩
  · rintro ⟨chosen, declaring, hchosen, hcolumn, hdeclaring, hbreaks⟩
    rcases hbreaks with ⟨hkind, hbreaks⟩ |
      ⟨hkind, holder, referenced, key, hends, hpeer, hkey, hbreaks⟩
    · obtain ⟨v, hr⟩ := hjunction.mpr hbreaks
      exact ⟨v, (configureJoin_iff (Or.inr ⟨v, rfl⟩)).mpr
        ⟨chosen, declaring, hchosen, hcolumn, hdeclaring, Or.inl ⟨hkind, hr⟩⟩⟩
    · obtain ⟨v, hr⟩ := (hsettle (hchosen ▸ rfl) hdeclaring hkind hends hpeer hkey).mpr hbreaks
      exact ⟨v, (configureJoin_iff (Or.inr ⟨v, rfl⟩)).mpr ⟨chosen, declaring, hchosen, hcolumn,
        hdeclaring, Or.inr ⟨hkind, holder, referenced, key, hends, hpeer, hkey, hr⟩⟩⟩

end Schema

theorem EditError.kind_eq_invariantViolation {error : EditError} :
    error.kind = .invariantViolation ↔ ∃ v, error = .violation v := by
  cases error with
  | violation v => exact iff_of_true rfl ⟨v, rfl⟩
  | _ => exact iff_of_false nofun fun ⟨_, h⟩ => nomatch h

/-- The intent removes something or configures a join. -/
def Intent.DeletesOrConfigures : Intent → Prop
  | .deleteTable _ | .deleteColumn _ _ | .configureJoin _ _ | .deleteJoin _ => True
  | _ => False

/-- The intent removes what a join needs that stays, or leaves a column as none may be. -/
def Intent.Breaks (schema : Schema) : Intent → Prop
  | .deleteTable table =>
    (schema.table? table).isSome = true ∧ schema.Orphans (schema.joinsTouching table)
  | .deleteColumn table column => ∃ t c, schema.table? table = some t ∧
    t.column? column = some c ∧ c.primaryKey = false ∧ schema.RefersOtherwise table c
  | .configureJoin join config => schema.ChoiceBreaks join config
  | .deleteJoin join => schema.Orphans [join]
  | _ => False

namespace Schema

/-- **An edit that deletes or configures shows a violation just if it breaks the schema**. -/
theorem violation_iff_breaks {schema : Schema} (hv : schema.validate = .ok ()) {ids : IdSupply}
    (hunused : ids.UnusedIn schema) {intent : Intent} (hi : intent.DeletesOrConfigures) :
    (∃ error, schema.apply ids intent = .error error ∧ error.kind = .invariantViolation) ↔
      intent.Breaks schema := by
  rw [validate_iff] at hv
  have hviolates : (∃ error, schema.apply ids intent = .error error ∧
      error.kind = .invariantViolation) ↔ Violates (schema.apply ids intent) := by
    simp only [EditError.kind_eq_invariantViolation]
    exact ⟨fun ⟨_, h, v, he⟩ => ⟨v, he ▸ h⟩, fun ⟨v, h⟩ => ⟨_, h, v, rfl⟩⟩
  rw [hviolates]
  cases intent with
  | deleteTable table => exact violates_bind_pure.trans (violates_deleteTable hv)
  | deleteColumn table column => exact violates_bind_pure.trans (violates_deleteColumn hv)
  | configureJoin join config =>
      exact violates_bind_pure.trans (violates_configureJoin hv hunused)
  | deleteJoin join => exact violates_bind_pure.trans (violates_deleteJoin hv)
  | _ => exact hi.elim

/-- Posts have a slug, which is unique, and comments refer to it. -/
def commentsBySlug : Schema :=
  let about : Join :=
    { id := .between ⟨"c"⟩ ⟨"p"⟩
      kind := .manyToOne
      source := ⟨"c"⟩
      target := some ⟨⟨"p"⟩, some ⟨"p2"⟩⟩
      onDelete := .cascade
      onUpdate := .restrict
      through := none
      joinColumn := none
      inverseColumn := none }
  let posts := (Table.seeded ⟨"p"⟩ ⟨"p1"⟩ "Post" .uuid).addColumn
    { Column.plain ⟨"p2"⟩ ⟨"p"⟩ "slug" with unique := true }
  let comments := (Table.seeded ⟨"c"⟩ ⟨"c1"⟩ "Comment" .uuid).addColumn
    (Column.foreign ⟨"c2"⟩ ⟨"c"⟩ "postSlug" .plainString about)
  ((empty.append posts).append comments).addMirror about

/-- The slug cannot be deleted, and the refusal is a violation. -/
theorem commentsBySlug_violated : commentsBySlug.validate = .ok () ∧
    ∃ error, commentsBySlug.apply ⟨"j", 0⟩ (.deleteColumn ⟨"p"⟩ ⟨"p2"⟩) = .error error ∧
      error.kind = .invariantViolation := by
  have hvalidate : commentsBySlug.validate = .ok () := ok_of_toOption (by decide +kernel)
  have hfirst : ∀ text ∈ commentsBySlug.collect Table.idTexts, text.toList.head? ≠ some 'j' := by
    decide +kernel
  have hjoins : ∀ o ∈ commentsBySlug.owningJoins, o.join.id.text.toList.head? ≠ some 'j' := by
    decide +kernel
  have hunused : IdSupply.UnusedIn ⟨"j", 0⟩ commentsBySlug := by
    refine ⟨fun k hk => hfirst _ hk ?_, fun o ho table n he => hjoins o ho ?_⟩
    · rw [IdSupply.text, String.toList_append]
      rfl
    · rw [he, JoinId.nth_eq, IdSupply.tableId, IdSupply.text, String.append_assoc,
        String.append_assoc, String.append_assoc, String.toList_append]
      rfl
  have hbreaks : (Intent.deleteColumn ⟨"p"⟩ ⟨"p2"⟩).Breaks commentsBySlug := by
    refine ⟨_, _, rfl, rfl, rfl, ?_⟩
    show ∃ o ∈ commentsBySlug.owningJoins, _ ∧ _
    decide +kernel
  have hi : (Intent.deleteColumn ⟨"p"⟩ ⟨"p2"⟩).DeletesOrConfigures := trivial
  exact ⟨hvalidate, (violation_iff_breaks hvalidate hunused hi).mpr hbreaks⟩

/-- It is the comments that refer to nothing without the slug. -/
theorem commentsBySlug_without_slug : commentsBySlug.validate = .ok () ∧
    commentsBySlug.apply ⟨"j", 0⟩ (.deleteColumn ⟨"p"⟩ ⟨"p2"⟩) =
      .error (.violation (.missingColumn (.between ⟨"c"⟩ ⟨"p"⟩) ⟨"p2"⟩ "Post")) :=
  ⟨ok_of_toOption (by decide +kernel), rfl⟩

end Schema

end ErModel
