import ErModel.Proofs.Reconciling
import ErModel.Proofs.RecordReading

/-!
# Documents are read back

A document of either shape holds all of a schema, and what it says besides is right: the joins that
it lists are those of its tables, and every node has the id of its table. So reading a document that
was written from a valid schema gives that schema, and from the document of nodes and edges also the
positions, those that were made up for tables without one among them. Written again, it is the same
document.

All of that is for numbers that have a JSON text and are read without loss. A number that is not
finite has none, and is written as `null`.
-/

namespace ErModel

/-- The number has a JSON text, and reading it loses nothing. -/
structure Binary64.Legible (x : Binary64) : Prop where
  isFinite : x.isFinite = true
  lossless : (Json.Number.real x).Lossless

/-- Numbers that are written in at most fifteen digits without exponent are legible. -/
theorem Binary64.Legible.of_length {x : Binary64} (hfinite : x.isFinite = true)
    (hplain : 'e' ∉ Json.writeNumber (.real x))
    (hlength : (Json.writeNumber (.real x)).length ≤ 16) : x.Legible :=
  ⟨hfinite, Json.lossless_of_length hfinite hplain hlength⟩

/-- The numbers among the defaults of a schema are legible. -/
def Schema.LegibleDefaults (schema : Schema) : Prop :=
  ∀ t ∈ schema.tables, ∀ c ∈ t.columns, ∀ x, c.defaultValue = some (.number x) → x.Legible

/-- The positions of a canvas are legible. -/
def Canvas.Legible (canvas : Canvas) : Prop :=
  ∀ place ∈ canvas.places, place.2.x.Legible ∧ place.2.y.Legible

namespace Exchange

open Json (Legible)

/-! ## What is written is legible -/

section

variable (room : Nat)

theorem legible_orNull {α : Type} (write : α → Json) {value? : Option α}
    (h : ∀ value, value? = some value → Legible room (write value)) :
    Legible room (orNull write value?) := by
  cases value? with
  | none => exact .null
  | some value => exact h value rfl

theorem legible_textOrNull (text? : Option String) : Legible room (.textOrNull text?) :=
  legible_orNull room .text fun _ _ => .text _

theorem legible_real {x : Binary64} (h : x.Legible) : Legible room (.real x) := by
  rw [Json.real, if_pos h.isFinite]
  exact .number (Json.legible_of_lossless h.isFinite h.lossless)

theorem legible_ofWord (n : UInt32) : Legible room (ofWord n) :=
  .number (Json.legible_whole (Nat.le_trans (Nat.le_of_lt n.toNat_lt) (by decide)))

theorem legible_ofTarget (target : JoinTarget) : Legible (room + 1) (ofTarget target) := by
  refine .object (show ["table", "column"].Nodup by decide) ?_
  simp only [List.forall_mem_cons]
  exact ⟨.text _, legible_textOrNull room _, fun _ h => absurd h List.not_mem_nil⟩

theorem legible_ofJunctionColumn (column : JunctionColumn) :
    Legible (room + 1) (ofJunctionColumn column) := by
  refine .object (show ["name", "referencedColumnName"].Nodup by decide) ?_
  simp only [List.forall_mem_cons]
  exact ⟨.text _, .text _, fun _ h => absurd h List.not_mem_nil⟩

theorem legible_ofJoin (join : Join) : Legible (room + 2) (ofJoin join) := by
  have htarget : Legible (room + 1) (orNull ofTarget join.target) :=
    legible_orNull _ ofTarget fun target _ => legible_ofTarget room target
  have hjunction : ∀ column?, Legible (room + 1) (orNull ofJunctionColumn column?) :=
    fun _ => legible_orNull _ ofJunctionColumn fun column _ => legible_ofJunctionColumn room column
  refine .object (show ["id", "type", "source", "target", "onDelete", "onUpdate", "through",
    "joinColumn", "inverseColumn"].Nodup by decide) ?_
  simp only [List.forall_mem_cons]
  exact ⟨.text _, .text _, .text _, htarget, .text _, .text _, legible_textOrNull _ _,
    hjunction _, hjunction _, fun _ h => absurd h List.not_mem_nil⟩

theorem legible_dataTypeMembers (dataType : DataType) :
    ∀ member ∈ dataTypeMembers dataType, Legible room member.2 := by
  cases dataType with
  | string length collation =>
      cases collation <;>
        simp [dataTypeMembers, setMember, legible_ofWord, Legible.text]
  | float precision scale =>
      cases precision <;> cases scale <;>
        simp [dataTypeMembers, setMember, legible_ofWord, Legible.text]
  | _ => simp [dataTypeMembers, Legible.text]

theorem keys_ofColumn (column : Column) : ((membersBefore column ++
    dataTypeMembers column.dataType ++ membersBehind column).map (·.1)).Nodup := by
  have hall : ((membersBefore column).map (·.1) ++ dataTypeFields ++
      (membersBehind column).map (·.1)).Nodup := by
    simp [membersBefore, membersBehind, dataTypeFields]
  rw [List.map_append, List.map_append]
  exact hall.sublist (((keys_dataTypeMembers column.dataType).append_left _).append_right _)

theorem legible_ofColumn {column : Column}
    (h : ∀ x, column.defaultValue = some (.number x) → x.Legible) :
    Legible (room + 3) (ofColumn column) := by
  have hdefault : Legible (room + 2) (orNull ofDefault column.defaultValue) := by
    refine legible_orNull _ ofDefault fun value hvalue => ?_
    cases value with
    | bool b => exact .bool b
    | number x => exact legible_real _ (h x hvalue)
    | text t => exact .text t
  have hforeign : Legible (room + 2) (orNull ofJoin column.foreignKey) :=
    legible_orNull _ ofJoin fun join _ => legible_ofJoin room join
  have hbefore : ∀ member ∈ membersBefore column, Legible (room + 2) member.2 := by
    simp only [membersBefore, List.forall_mem_cons]
    exact ⟨.text _, .text _, .text _, .text _, fun _ h => absurd h List.not_mem_nil⟩
  have hbehind : ∀ member ∈ membersBehind column, Legible (room + 2) member.2 := by
    simp only [membersBehind, List.forall_mem_cons]
    exact ⟨.bool _, .bool _, .bool _, .bool _, .bool _, hdefault, .text _, hforeign,
      fun _ h => absurd h List.not_mem_nil⟩
  rw [ofColumn_eq]
  refine .object (keys_ofColumn column) (List.forall_mem_append.mpr ⟨?_, hbehind⟩)
  exact List.forall_mem_append.mpr ⟨hbefore, legible_dataTypeMembers _ _⟩

theorem legible_ofTable {table : Table}
    (h : ∀ c ∈ table.columns, ∀ x, c.defaultValue = some (.number x) → x.Legible) :
    Legible (room + 5) (ofTable table) := by
  have hcolumns : ∀ item ∈ table.columns.map ofColumn, Legible (room + 3) item :=
    List.forall_mem_map.mpr fun c hc => legible_ofColumn room (h c hc)
  have hjoins : ∀ item ∈ table.joins.map ofJoin, Legible (room + 3) item :=
    List.forall_mem_map.mpr fun join _ => legible_ofJoin (room + 1) join
  refine .object (show ["id", "name", "storageName", "primaryKeyColumnId", "description",
    "columns", "joins"].Nodup by decide) ?_
  simp only [List.forall_mem_cons]
  exact ⟨.text _, .text _, .text _, legible_textOrNull _ _, .text _, .array hcolumns,
    .array hjoins, fun _ h => absurd h List.not_mem_nil⟩

theorem legible_ofPosition {position : Position} (hx : position.x.Legible)
    (hy : position.y.Legible) : Legible (room + 1) (ofPosition position) := by
  refine .object (show ["x", "y"].Nodup by decide) ?_
  simp only [List.forall_mem_cons]
  exact ⟨legible_real _ hx, legible_real _ hy, fun _ h => absurd h List.not_mem_nil⟩

theorem legible_ofEdge (edge : Edge) : Legible (room + 1) (ofEdge edge) := by
  refine .object (show ["id", "source", "target", "label", "sourceMarker", "targetMarker",
    "isLoop", "pending"].Nodup by decide) ?_
  simp only [List.forall_mem_cons]
  exact ⟨.text _, .text _, .text _, .text _, .text _, .text _, .bool _, .bool _,
    fun _ h => absurd h List.not_mem_nil⟩

end

/-! ## The nodes of a document -/

/-- The tables of a schema, each with its id and its place. -/
def placedTables (schema : Schema) (canvas : Canvas) (step : Binary64) :
    List (TableId × Position × Table) :=
  schema.tables.mapIdx fun i t => (t.id, canvas.positionOr t.id i step, t)

/-- A node. -/
def ofPlacedTable : TableId × Position × Table → Json
  | (id, position, table) =>
    .object [("id", .text id.text), ("position", ofPosition position), ("data", ofTable table)]

section

variable (schema : Schema) (canvas : Canvas) (step : Binary64)

theorem flowDocument_eq : flowDocument schema canvas step =
    .object [("nodes", .array ((placedTables schema canvas step).map ofPlacedTable)),
      ("edges", .array (schema.edges.map ofEdge))] := by
  rw [placedTables, map_mapIdx]
  rfl

theorem tables_placedTables : (placedTables schema canvas step).map (·.2.2) = schema.tables := by
  rw [placedTables, map_mapIdx, List.mapIdx_eq_zipIdx_map]
  exact List.zipIdx_map_fst 0 schema.tables

theorem places_placedTables : (placedTables schema canvas step).map (fun node =>
    (node.1, node.2.1)) = (canvas.arranged schema step).places := by
  rw [placedTables, map_mapIdx]
  rfl

end

section

variable {schema : Schema} {canvas : Canvas} {step : Binary64}

theorem mem_placedTables {node : TableId × Position × Table}
    (h : node ∈ placedTables schema canvas step) :
    node.1 = node.2.2.id ∧ node.2.2 ∈ schema.tables ∧
      (node.1, node.2.1) ∈ (canvas.arranged schema step).places := by
  refine ⟨?_, ?_, ?_⟩
  · obtain ⟨i, hi, rfl⟩ := List.mem_mapIdx.mp h
    rfl
  · rw [← tables_placedTables schema canvas step]
    exact List.mem_map.mpr ⟨node, h, rfl⟩
  · rw [← places_placedTables schema canvas step]
    exact List.mem_map.mpr ⟨node, h, rfl⟩

/-- Once every table has a position, none is made up. -/
theorem placedTables_arranged (hids : (schema.tables.map (·.id)).Nodup) (step' : Binary64) :
    placedTables schema (canvas.arranged schema step) step' = placedTables schema canvas step := by
  refine List.mapIdx_eq_mapIdx_iff.mpr fun i hi => ?_
  have hposition := Schema.position?_arranged hids canvas step (List.getElem?_eq_getElem hi)
  rw [Canvas.positionOr, hposition, Option.getD_some]
  rfl

end

/-! ## Documents are legible -/

section

variable {schema : Schema} {canvas : Canvas} {step : Binary64}

theorem legible_schemaDocument (h : schema.LegibleDefaults) :
    Legible Json.depthLimit (schemaDocument schema) := by
  -- the document and a list of it take two of the containers that may be nested
  have htables : ∀ item ∈ schema.tables.map ofTable, Legible 125 item :=
    List.forall_mem_map.mpr fun t ht => legible_ofTable 120 (h t ht)
  have hjoins : ∀ item ∈ schema.owningJoins.map fun owned => ofJoin owned.join,
      Legible 125 item :=
    List.forall_mem_map.mpr fun owned _ => legible_ofJoin 123 owned.join
  refine .object (show ["tables", "joins"].Nodup by decide) ?_
  simp only [List.forall_mem_cons]
  exact ⟨.array htables, .array hjoins, fun _ h => absurd h List.not_mem_nil⟩

theorem legible_flowDocument (h : schema.LegibleDefaults)
    (hplaces : (canvas.arranged schema step).Legible) :
    Legible Json.depthLimit (flowDocument schema canvas step) := by
  have hnodes : ∀ item ∈ (placedTables schema canvas step).map ofPlacedTable,
      Legible 125 item := by
    refine List.forall_mem_map.mpr fun node hnode => ?_
    obtain ⟨-, htable, hplace⟩ := mem_placedTables hnode
    obtain ⟨hx, hy⟩ := hplaces _ hplace
    refine .object (show ["id", "position", "data"].Nodup by decide) ?_
    simp only [List.forall_mem_cons]
    exact ⟨.text _, legible_ofPosition 123 hx hy, legible_ofTable 119 (h _ htable),
      fun _ h => absurd h List.not_mem_nil⟩
  have hedges : ∀ item ∈ schema.edges.map ofEdge, Legible 125 item :=
    List.forall_mem_map.mpr fun edge _ => legible_ofEdge 124 edge
  rw [flowDocument_eq]
  refine .object (show ["nodes", "edges"].Nodup by decide) ?_
  simp only [List.forall_mem_cons]
  exact ⟨.array hnodes, .array hedges, fun _ h => absurd h List.not_mem_nil⟩

/-! ## Reading a document -/

/-- A document that gives a valid schema is taken. -/
theorem read_pretty {document : Json} {placed : Placed} (hl : Legible Json.depthLimit document)
    (hread : readPlaced document = .ok placed) (hv : placed.schema.validate = .ok ()) :
    read document.pretty = .ok placed := by
  simp only [read, Json.read?_pretty hl, wellFormed, bind, Except.bind, hread, hv]
  rfl

theorem table?_of_legible (h : schema.LegibleDefaults) :
    ∀ t ∈ schema.tables, table? (ofTable t) = some t :=
  fun t ht => table?_ofTable fun c hc x hx => (h t ht c hc x hx).isFinite

/-- Tables are taken when every join that is listed is one of theirs. -/
theorem readTables_eq {fields : Json.Record} {tables : List Table} {joins : List Join}
    (htables : fields.withDefault "tables" (Json.list? table?) [] = some tables)
    (hjoins : fields.withDefault "joins" (Json.list? join?) [] = some joins)
    (hstray : joins.find? (fun join => !Schema.containsJoin ⟨tables⟩ join.id) = none) :
    readTables fields = .ok ⟨⟨tables⟩, .empty⟩ := by
  simp only [readTables, htables, hjoins, wellFormed, bind, Except.bind, hstray]
  rfl

theorem readPlaced_schemaDocument (h : schema.LegibleDefaults) :
    readPlaced (schemaDocument schema) = .ok ⟨schema, .empty⟩ := by
  let fields := fieldsOf (schemaDocument schema)
  have htables : fields.withDefault "tables" (Json.list? table?) [] = some schema.tables :=
    list?_written (table?_of_legible h)
  have hjoins : fields.withDefault "joins" (Json.list? join?) [] =
      some (schema.owningJoins.map (·.join)) :=
    list?_map fun owned _ => join?_ofJoin owned.join
  -- the joins that are listed are those of the tables
  have hstray : (schema.owningJoins.map (·.join)).find? (fun join =>
      !schema.containsJoin join.id) = none := by
    refine List.find?_eq_none.mpr fun join hjoin => ?_
    obtain ⟨owned, howned, rfl⟩ := List.mem_map.mp hjoin
    have hcontains : schema.containsJoin owned.join.id = true :=
      List.any_eq_true.mpr ⟨owned, howned, by simp⟩
    simp [hcontains]
  exact readTables_eq htables hjoins hstray

/-- A node is read as the place of its table and the table. -/
theorem node?_ofPlacedTable {node : TableId × Position × Table}
    (h : table? (ofTable node.2.2) = some node.2.2) (hx : node.2.1.x.isFinite = true)
    (hy : node.2.1.y.isFinite = true) : node? (ofPlacedTable node) = some node := by
  let fields := fieldsOf (ofPlacedTable node)
  have hid : fields.required "id" Json.text? = some node.1.text := rfl
  have hposition : fields.required "position" position? = some node.2.1 :=
    position?_ofPosition hx hy
  have hdata : fields.required "data" table? = some node.2.2 := h
  unfold node?
  show (some fields).bind _ = _
  simp only [Option.bind_some, Option.bind_eq_bind, hid, hposition, hdata]
  rfl

/-- Tables are placed one after the other, as their ids differ. -/
theorem foldl_place {nodes : List (TableId × Position × Table)} (canvas : Canvas)
    (hids : (canvas.places.map (·.1) ++ nodes.map (·.1)).Nodup) :
    nodes.foldl (fun canvas (id, position, _) => canvas.place id position) canvas =
      ⟨canvas.places ++ nodes.map fun node => (node.1, node.2.1)⟩ := by
  induction nodes generalizing canvas with
  | nil => simp
  | cons node rest ih =>
      obtain ⟨id, position, table⟩ := node
      -- the table has no place yet that this one would replace
      have hall : canvas.places.filter (·.1 ≠ id) = canvas.places := by
        refine List.filter_eq_self.mpr fun place hplace => ?_
        have hne := (List.nodup_append.mp hids).2.2 place.1 (List.mem_map.mpr ⟨place, hplace, rfl⟩)
          id List.mem_cons_self
        simpa using hne
      have hplaced : canvas.place id position = ⟨canvas.places ++ [(id, position)]⟩ := by
        rw [Canvas.place, hall]
      rw [List.foldl_cons]
      show rest.foldl _ (canvas.place id position) = _
      rw [hplaced, ih]
      · simp
      · simpa using hids

/-- Tables are taken from nodes when every node has the id of its table. -/
theorem readNodes_eq {fields : Json.Record} {nodes : List (TableId × Position × Table)}
    {edges : List Edge}
    (hnodes : fields.withDefault "nodes" (Json.list? node?) [] = some nodes)
    (hedges : fields.withDefault "edges" (Json.list? edge?) [] = some edges)
    (hhome : nodes.find? (fun (id, _, table) => id ≠ table.id) = none) :
    readNodes fields = .ok ⟨⟨nodes.map (·.2.2)⟩,
      nodes.foldl (fun canvas (id, position, _) => canvas.place id position) .empty⟩ := by
  simp only [readNodes, hnodes, hedges, wellFormed, bind, Except.bind, hhome]
  rfl

theorem readPlaced_flowDocument (hids : (schema.tables.map (·.id)).Nodup)
    (h : schema.LegibleDefaults) (hplaces : (canvas.arranged schema step).Legible) :
    readPlaced (flowDocument schema canvas step) =
      .ok ⟨schema, canvas.arranged schema step⟩ := by
  let fields := fieldsOf (flowDocument schema canvas step)
  have hnodes : fields.withDefault "nodes" (Json.list? node?) [] =
      some (placedTables schema canvas step) := by
    show ((fieldsOf (flowDocument schema canvas step)).withDefault "nodes" _ _) = _
    rw [flowDocument_eq]
    refine list?_written fun node hnode => ?_
    obtain ⟨-, htable, hplace⟩ := mem_placedTables hnode
    obtain ⟨hx, hy⟩ := hplaces _ hplace
    exact node?_ofPlacedTable (table?_of_legible h _ htable) hx.isFinite hy.isFinite
  have hedges : fields.withDefault "edges" (Json.list? edge?) [] = some schema.edges :=
    list?_written fun edge _ => edge?_ofEdge edge
  have hhome : (placedTables schema canvas step).find?
      (fun (id, _, table) => id ≠ table.id) = none := by
    refine List.find?_eq_none.mpr fun node hnode => ?_
    simpa using (mem_placedTables hnode).1
  have hnodeIds : (placedTables schema canvas step).map (·.1) = schema.tables.map (·.id) := by
    rw [← Schema.places_arranged canvas schema step, ← places_placedTables, List.map_map]
    rfl
  show readNodes fields = _
  rw [readNodes_eq hnodes hedges hhome, tables_placedTables,
    foldl_place .empty (by rw [hnodeIds]; exact hids), places_placedTables]
  rfl

/-- The positions that were made up are written as such, so the text is the same from then on. -/
theorem writeFlow_arranged (hids : (schema.tables.map (·.id)).Nodup) (step' : Binary64) :
    writeFlow schema (canvas.arranged schema step) step' = writeFlow schema canvas step := by
  rw [writeFlow, writeFlow, flowDocument_eq, flowDocument_eq, placedTables_arranged hids]

end

/-- **Documents are read back.** From a document of tables and joins comes the schema that it was
written from, with no positions. From a document of nodes and edges comes the schema with a position
for each of its tables, the one it had or its place on the diagonal, and writing that gives the same
text. -/
theorem read_written {schema : Schema} (hv : schema.validate = .ok ())
    (hdefaults : schema.LegibleDefaults) :
    read (writeSchema schema) = .ok ⟨schema, .empty⟩ ∧
      ∀ (canvas : Canvas) (step : Binary64), (canvas.arranged schema step).Legible →
        read (writeFlow schema canvas step) = .ok ⟨schema, canvas.arranged schema step⟩ ∧
        (canvas.arranged schema step).places.map (·.1) = schema.tables.map (·.id) ∧
        (∀ (i : Nat) (t : Table), schema.tables[i]? = some t →
          (canvas.arranged schema step).position? t.id =
            some ((canvas.position? t.id).getD (.diagonal i step))) ∧
        ∀ step', writeFlow schema (canvas.arranged schema step) step' =
          writeFlow schema canvas step := by
  have hids := (Schema.validate_iff.mp hv).ids
  refine ⟨?_, fun canvas step hplaces => ⟨?_, ?_, ?_, ?_⟩⟩
  · exact read_pretty (legible_schemaDocument hdefaults) (readPlaced_schemaDocument hdefaults) hv
  · exact read_pretty (legible_flowDocument hdefaults hplaces)
      (readPlaced_flowDocument hids hdefaults hplaces) hv
  · exact Schema.places_arranged canvas schema step
  · exact fun i t ht => Schema.position?_arranged hids canvas step ht
  · exact writeFlow_arranged hids

/-- Items that have a price, and a table of orders that refer to them. -/
def pricedItems : Schema :=
  let price : Column :=
    { Column.plain ⟨"i2"⟩ ⟨"i"⟩ "price" with
      dataType := .float (some 10) (some 2)
      defaultValue := some (.number (.ofScientific false 15 (-1))) }
  let ordered : Join :=
    { id := ⟨"o->i"⟩
      kind := .manyToOne
      source := ⟨"o"⟩
      target := some ⟨⟨"i"⟩, some ⟨"i1"⟩⟩
      onDelete := .cascade
      onUpdate := .restrict
      through := none
      joinColumn := none
      inverseColumn := none }
  let item : Column :=
    { Column.plain ⟨"o2"⟩ ⟨"o"⟩ "itemId" with
      dataType := .uuid
      foreignKey := some ordered }
  let items := (Table.seeded ⟨"i"⟩ ⟨"i1"⟩ "Item" .uuid).addColumn price
  let orders := (Table.seeded ⟨"o"⟩ ⟨"o1"⟩ "Order" .uuid).addColumn item
  ⟨[{ items with joins := [ordered.mirror] }, orders]⟩

/-- The items have a position and the orders have none. -/
def itemsPlaced : Canvas := ⟨[(⟨"i"⟩, ⟨.ofInt 5, .ofScientific true 25 (-1)⟩)]⟩

/-- The price is read back, and so are both positions; the orders are at 20, the second place. -/
theorem pricedItems_read_back : pricedItems.validate = .ok () ∧
    read (writeSchema pricedItems) = .ok ⟨pricedItems, .empty⟩ ∧
    (∃ placed, read (writeFlow pricedItems itemsPlaced (.ofInt 10)) = .ok ⟨pricedItems, placed⟩ ∧
      placed.position? ⟨"i"⟩ = some ⟨.ofInt 5, .ofScientific true 25 (-1)⟩ ∧
      placed.position? ⟨"o"⟩ = some ⟨.ofInt 20, .ofInt 20⟩) := by
  have hvalidate : pricedItems.validate = .ok () := ok_of_toOption (by decide +kernel)
  have hdefaults : pricedItems.LegibleDefaults := by
    have hnumbers : ∀ t ∈ pricedItems.tables, ∀ c ∈ t.columns, ∀ d ∈ c.defaultValue,
        d = .number (.ofScientific false 15 (-1)) := by decide +kernel
    intro t ht c hc x hx
    rw [DefaultValue.number.inj (hnumbers t ht c hc _ hx)]
    exact .of_length (by decide +kernel) (by decide +kernel) (by decide +kernel)
  have hplaces : (itemsPlaced.arranged pricedItems (.ofInt 10)).Legible := by
    have harranged : itemsPlaced.arranged pricedItems (.ofInt 10) =
        ⟨[(⟨"i"⟩, ⟨.ofInt 5, .ofScientific true 25 (-1)⟩),
          (⟨"o"⟩, ⟨.ofInt 20, .ofInt 20⟩)]⟩ := by decide +kernel
    have hlegible : ∀ x ∈ [Binary64.ofInt 5, .ofScientific true 25 (-1), .ofInt 20],
        x.Legible := by
      simp only [List.forall_mem_cons]
      refine ⟨.of_length ?_ ?_ ?_, .of_length ?_ ?_ ?_, .of_length ?_ ?_ ?_, by simp⟩
      all_goals decide +kernel
    rw [harranged]
    simp only [Canvas.Legible, List.forall_mem_cons]
    exact ⟨⟨hlegible _ (by simp), hlegible _ (by simp)⟩, ⟨hlegible _ (by simp),
      hlegible _ (by simp)⟩, by simp⟩
  obtain ⟨hschema, hflow⟩ := read_written hvalidate hdefaults
  obtain ⟨hread, -, -, -⟩ := hflow _ _ hplaces
  exact ⟨hvalidate, hschema, _, hread, by decide +kernel, by decide +kernel⟩

end Exchange

end ErModel
