import ErModel.Exchange.Document
import ErModel.Proofs.JsonReading

/-!
# Records out of JSON

Every reader of a record undoes its writer, whatever the fields of the record are. The fields of a
column are not always the same, since the attributes of its data type stand among them; and only a
number that is finite has a JSON form, so that a column is read back if its default is.
-/

namespace ErModel.Exchange

open Json (Record)

theorem choice?_kind (kind : JoinKind) : Json.choice? kinds (.text kind.label) = some kind := by
  cases kind <;> rfl

theorem choice?_action (action : Action) :
    Json.choice? actions (.text (actionName action)) = some action := by
  cases action <;> rfl

theorem marker?_name (marker : Marker) : marker? (.text (markerName marker)) = some marker := by
  cases marker <;> rfl

theorem word?_ofWord (n : UInt32) : Json.word? (ofWord n) = some n := by
  have hlt : n.toNat < 2 ^ 32 := n.toNat_lt
  show Option.map UInt32.ofNat (if n.toNat < 2 ^ 32 then some n.toNat else none) = some n
  rw [if_pos hlt, Option.map_some, UInt32.ofNat_toNat]

/-- A list is read item by item. -/
theorem list?_map {α β : Type} {read : Json → Option α} {write : β → Json} {value : β → α}
    {xs : List β} (h : ∀ x ∈ xs, read (write x) = some (value x)) :
    Json.list? read (.array (xs.map write)) = some (xs.map value) := by
  show (xs.map write).mapM read = some (xs.map value)
  induction xs with
  | nil => rfl
  | cons x rest ih =>
      rw [List.forall_mem_cons] at h
      rw [List.map_cons, List.mapM_cons, h.1, ih h.2]
      rfl

/-- A list of things that their reader reads is read as it was. -/
theorem list?_written {α : Type} {read : Json → Option α} {write : α → Json} {xs : List α}
    (h : ∀ x ∈ xs, read (write x) = some x) :
    Json.list? read (.array (xs.map write)) = some xs :=
  (list?_map h).trans (congrArg some (List.map_id xs))

/-- A field that is there, or `null` where there is nothing. -/
theorem optional_orNull {α : Type} {record : Record} {name : String} {read : Json → Option α}
    (write : α → Json) {value? : Option α} (hget : record.get? name = some (orNull write value?))
    (hread : ∀ value, value? = some value → read (write value) = some value)
    (hnull : read .null = none) : record.optional name read = some value? := by
  rw [Record.optional, hget]
  cases value? with
  | none => rfl
  | some value =>
      have hvalue := hread value rfl
      rw [show orNull write (some value) = write value from rfl]
      -- a value that is written as `null` would be taken for none
      split
      · rename_i h
        cases h
      · rename_i h
        rw [Option.some.inj h, hnull] at hvalue
        cases hvalue
      · rename_i h
        rw [← Option.some.inj h, hvalue]
        rfl

/-- The members of an object, as the fields of a record. -/
def fieldsOf : Json → Record
  | .object members => ⟨members⟩
  | _ => ⟨[]⟩

theorem target?_ofTarget (target : JoinTarget) : target? (ofTarget target) = some target := by
  obtain ⟨table, column⟩ := target
  cases column <;> rfl

theorem junctionColumn?_ofJunctionColumn (column : JunctionColumn) :
    junctionColumn? (ofJunctionColumn column) = some column := rfl

theorem join?_ofJoin (join : Join) : join? (ofJoin join) = some join := by
  let fields := fieldsOf (ofJoin join)
  have hid : fields.required "id" Json.text? = some join.id.text := rfl
  have hkind : fields.required "type" (Json.choice? kinds) = some join.kind :=
    choice?_kind join.kind
  have hsource : fields.required "source" Json.text? = some join.source.text := rfl
  have htarget : fields.optional "target" target? = some join.target :=
    optional_orNull ofTarget rfl (fun target _ => target?_ofTarget target) rfl
  have hdelete : fields.required "onDelete" (Json.choice? actions) = some join.onDelete :=
    choice?_action join.onDelete
  have hupdate : fields.required "onUpdate" (Json.choice? actions) = some join.onUpdate :=
    choice?_action join.onUpdate
  have hthrough : fields.optional "through" Json.text? = some join.through :=
    optional_orNull .text rfl (fun _ _ => rfl) rfl
  have hjoin : fields.optional "joinColumn" junctionColumn? = some join.joinColumn :=
    optional_orNull ofJunctionColumn rfl (fun column _ => junctionColumn?_ofJunctionColumn column)
      rfl
  have hinverse : fields.optional "inverseColumn" junctionColumn? = some join.inverseColumn :=
    optional_orNull ofJunctionColumn rfl (fun column _ => junctionColumn?_ofJunctionColumn column)
      rfl
  unfold join?
  show (some fields).bind _ = _
  simp only [Option.bind_some, Option.bind_eq_bind, hid, hkind, hsource, htarget, hdelete,
    hupdate, hthrough, hjoin, hinverse]
  rfl

/-! ## Columns and tables -/

theorem required_of_get {α : Type} {record : Record} {name : String} {read : Json → Option α}
    {value : Json} {a : α} (h : record.get? name = some value) (hread : read value = some a) :
    record.required name read = some a := by
  rw [Record.required, h]
  exact hread

theorem withDefault_of_get {α : Type} {record : Record} {name : String} {read : Json → Option α}
    {value : Json} {a missing : α} (h : record.get? name = some value)
    (hread : read value = some a) : record.withDefault name read missing = some a := by
  rw [Record.withDefault, h]
  exact hread

/-- The names of the members of a data type. -/
def dataTypeFields : List String := ["dataType", "length", "collation", "precision", "scale"]

/-- Every data type has some of the members, in this order. -/
theorem keys_dataTypeMembers (dataType : DataType) :
    ((dataTypeMembers dataType).map (·.1)).Sublist dataTypeFields := by
  cases dataType with
  | string length collation => cases collation <;> exact List.isSublist_iff_sublist.mp (by rfl)
  | float precision scale =>
      cases precision <;> cases scale <;> exact List.isSublist_iff_sublist.mp (by rfl)
  | _ => exact List.isSublist_iff_sublist.mp (by rfl)

/-- The members of a data type say nothing about other fields. -/
theorem lookup_dataTypeMembers (dataType : DataType) {name : String}
    (h : name ∉ dataTypeFields) :
    (dataTypeMembers dataType).lookup name = none := by
  rw [List.lookup_eq_none_iff]
  intro member hmem
  refine bne_iff_ne.mpr ?_
  rintro rfl
  exact h ((keys_dataTypeMembers dataType).subset (List.mem_map.mpr ⟨member, hmem, rfl⟩))

/-- The attributes of a data type are optional numbers. -/
theorem optional_word {record : Record} {name : String} {value? : Option UInt32}
    (h : record.get? name = value?.map ofWord) :
    record.optional name Json.word? = some value? := by
  cases value? with
  | none =>
      rw [Record.optional, h]
      rfl
  | some n =>
      rw [Record.optional, h]
      show (Json.word? (ofWord n)).map some = _
      rw [word?_ofWord]
      rfl

theorem dataType?_of_members {record : Record} {dataType : DataType}
    (h : ∀ name ∈ dataTypeFields,
      record.get? name = (dataTypeMembers dataType).lookup name) :
    dataType? record = some dataType := by
  have hname : record.required "dataType" dataTypeName? = some dataType.name := by
    refine required_of_get (h "dataType" (by decide)) ?_
    rfl
  unfold dataType?
  rw [hname]
  cases dataType with
  | string length collation =>
      have hlength : record.withDefault "length" Json.word? DataType.defaultLength =
          some length := by
        exact withDefault_of_get (h "length" (by decide)) (word?_ofWord length)
      have hcollation : record.optional "collation" Json.text? = some collation := by
        rw [Record.optional, h "collation" (by decide)]
        cases collation <;> rfl
      show (record.withDefault "length" Json.word? DataType.defaultLength).bind _ = _
      rw [hlength, Option.bind_some, hcollation]
      rfl
  | float precision scale =>
      have hprecision : record.optional "precision" Json.word? = some precision := by
        refine optional_word ((h "precision" (by decide)).trans ?_)
        cases precision <;> cases scale <;> rfl
      have hscale : record.optional "scale" Json.word? = some scale := by
        refine optional_word ((h "scale" (by decide)).trans ?_)
        cases precision <;> cases scale <;> rfl
      show (record.optional "precision" Json.word?).bind _ = _
      rw [hprecision, Option.bind_some, hscale]
      rfl
  | _ => rfl

theorem default?_ofDefault {value : DefaultValue}
    (h : ∀ x, value = .number x → x.isFinite = true) :
    default? (ofDefault value) = some value := by
  cases value with
  | number x =>
      show default? (.real x) = _
      rw [Json.real, if_pos (h x rfl)]
      rfl
  | _ => rfl

/-- The members of a column in front of those of its data type. -/
def membersBefore (column : Column) : List (String × Json) :=
  [("id", .text column.id.text),
    ("tableId", .text column.tableId.text),
    ("name", .text column.name),
    ("storageName", .text column.storageName)]

/-- The members of a column behind those of its data type. -/
def membersBehind (column : Column) : List (String × Json) :=
  [("primaryKey", .bool column.primaryKey),
    ("unique", .bool column.unique),
    ("index", .bool column.index),
    ("nullable", .bool column.nullable),
    ("autoIncrement", .bool column.autoIncrement),
    ("defaultValue", orNull ofDefault column.defaultValue),
    ("description", .text column.description),
    ("foreignKey", orNull ofJoin column.foreignKey)]

theorem ofColumn_eq (column : Column) : ofColumn column =
    .object (membersBefore column ++ dataTypeMembers column.dataType ++ membersBehind column) := rfl

theorem get?_ofColumn (column : Column) {name : String} (h : name ∉ dataTypeFields) :
    (fieldsOf (ofColumn column)).get? name =
      (membersBefore column ++ membersBehind column).lookup name := by
  rw [Record.get?, ofColumn_eq]
  show (membersBefore column ++ dataTypeMembers column.dataType ++
    membersBehind column).lookup name = _
  rw [List.lookup_append, List.lookup_append, lookup_dataTypeMembers _ h, Option.or_none,
    List.lookup_append]

theorem get?_ofColumn_dataType (column : Column) {name : String} (h : name ∈ dataTypeFields) :
    (fieldsOf (ofColumn column)).get? name = (dataTypeMembers column.dataType).lookup name := by
  have hnone : (membersBefore column).lookup name = none ∧
      (membersBehind column).lookup name = none := by
    simp only [dataTypeFields, List.mem_cons, List.not_mem_nil, or_false] at h
    rcases h with rfl | rfl | rfl | rfl | rfl <;> exact ⟨rfl, rfl⟩
  rw [Record.get?, ofColumn_eq]
  show (membersBefore column ++ dataTypeMembers column.dataType ++
    membersBehind column).lookup name = _
  rw [List.lookup_append, List.lookup_append, hnone.1, hnone.2, Option.none_or, Option.or_none]

/-- A column is read back if its default has a JSON form. -/
theorem column?_ofColumn {column : Column}
    (h : ∀ x, column.defaultValue = some (.number x) → x.isFinite = true) :
    column? (ofColumn column) = some column := by
  let fields := fieldsOf (ofColumn column)
  have hid : fields.required "id" Json.text? = some column.id.text :=
    required_of_get (get?_ofColumn column (by decide)) rfl
  have htable : fields.required "tableId" Json.text? = some column.tableId.text :=
    required_of_get (get?_ofColumn column (by decide)) rfl
  have hname : fields.required "name" Json.text? = some column.name :=
    required_of_get (get?_ofColumn column (by decide)) rfl
  have hstorage : fields.withDefault "storageName" Json.text? "" = some column.storageName :=
    withDefault_of_get (get?_ofColumn column (by decide)) rfl
  -- the members of the data type are found behind the first four
  have htype : dataType? fields = some column.dataType :=
    dataType?_of_members fun name hmem => get?_ofColumn_dataType column hmem
  have hkey : fields.withDefault "primaryKey" Json.bool? false = some column.primaryKey :=
    withDefault_of_get (get?_ofColumn column (by decide)) rfl
  have hunique : fields.withDefault "unique" Json.bool? false = some column.unique :=
    withDefault_of_get (get?_ofColumn column (by decide)) rfl
  have hindex : fields.withDefault "index" Json.bool? false = some column.index :=
    withDefault_of_get (get?_ofColumn column (by decide)) rfl
  have hnullable : fields.withDefault "nullable" Json.bool? false = some column.nullable :=
    withDefault_of_get (get?_ofColumn column (by decide)) rfl
  have hincrement : fields.withDefault "autoIncrement" Json.bool? false =
      some column.autoIncrement :=
    withDefault_of_get (get?_ofColumn column (by decide)) rfl
  have hdefault : fields.optional "defaultValue" default? = some column.defaultValue := by
    refine optional_orNull ofDefault (get?_ofColumn column (by decide)) (fun value hv => ?_) rfl
    exact default?_ofDefault fun x hx => h x (hx ▸ hv)
  have hdescription : fields.withDefault "description" Json.text? "" = some column.description :=
    withDefault_of_get (get?_ofColumn column (by decide)) rfl
  have hforeign : fields.optional "foreignKey" join? = some column.foreignKey :=
    optional_orNull ofJoin (get?_ofColumn column (by decide)) (fun join _ => join?_ofJoin join)
      rfl
  unfold column?
  show (some fields).bind _ = _
  simp only [Option.bind_some, Option.bind_eq_bind, hid, htable, hname, hstorage, htype, hkey,
    hunique, hindex, hnullable, hincrement, hdefault, hdescription, hforeign]
  rfl

theorem table?_ofTable {table : Table}
    (h : ∀ c ∈ table.columns, ∀ x, c.defaultValue = some (.number x) → x.isFinite = true) :
    table? (ofTable table) = some table := by
  let fields := fieldsOf (ofTable table)
  have hid : fields.required "id" Json.text? = some table.id.text := rfl
  have hname : fields.required "name" Json.text? = some table.name := rfl
  have hstorage : fields.withDefault "storageName" Json.text? "" = some table.storageName := rfl
  have hkey : fields.optional "primaryKeyColumnId" Json.text? =
      some (table.primaryKey.map (·.text)) :=
    optional_orNull .text rfl (fun _ _ => rfl) rfl
  have hdescription : fields.withDefault "description" Json.text? "" = some table.description := rfl
  have hcolumns : fields.withDefault "columns" (Json.list? column?) [] = some table.columns :=
    list?_written fun c hc => column?_ofColumn (h c hc)
  have hjoins : fields.withDefault "joins" (Json.list? join?) [] = some table.joins :=
    list?_written fun join _ => join?_ofJoin join
  unfold table?
  show (some fields).bind _ = _
  simp only [Option.bind_some, Option.bind_eq_bind, hid, hname, hstorage, hkey, hdescription,
    hcolumns, hjoins, Option.map_map]
  obtain ⟨id, name, storageName, primaryKey, description, columns, joins⟩ := table
  cases primaryKey <;> rfl

/-! ## Pictures -/

theorem position?_ofPosition {position : Position} (hx : position.x.isFinite = true)
    (hy : position.y.isFinite = true) : position? (ofPosition position) = some position := by
  rw [ofPosition, Json.real, Json.real, if_pos hx, if_pos hy]
  rfl

theorem edge?_ofEdge (edge : Edge) : edge? (ofEdge edge) = some edge := by
  let fields := fieldsOf (ofEdge edge)
  have hsource : fields.required "sourceMarker" marker? = some edge.sourceMarker :=
    marker?_name edge.sourceMarker
  have htarget : fields.required "targetMarker" marker? = some edge.targetMarker :=
    marker?_name edge.targetMarker
  have hid : fields.required "id" Json.text? = some edge.id.text := rfl
  unfold edge?
  show (some fields).bind _ = _
  simp only [Option.bind_some, Option.bind_eq_bind, hid, hsource, htarget]
  rfl

end ErModel.Exchange
