import Mathlib.Data.List.Forall2
import ErModel.Proofs.JsonLexing

/-!
# Values of a JSON text

The machine that finds the outline of a value goes over the lexemes of a text. Put together, the
scanner and the machine are one function of the text, and what that makes of a value that has been
written is said here for every place where a value may stand. So a value is read as it was written,
if its numbers are legible, the keys of its objects differ, and it is not nested too deeply.
-/

namespace ErModel.Json

open Source (Stops)

/-- What the machine makes of a text. -/
def Reading.run (state : Reading) (text : List Char) : Option Reading :=
  (lexemes? text).bind (·.foldlM Reading.step state)

/-- A value is wanted, inside the containers `outer`. -/
def Reading.Awaits (state : Reading) (outer : List Container) : Prop :=
  ∀ lexeme, lexeme ≠ .closeArray → state.step lexeme = Reading.begin outer lexeme

theorem awaits_value (outer : List Container) : (Reading.value outer).Awaits outer :=
  fun _ _ => rfl

theorem awaits_firstItem (outer : List Container) :
    (Reading.firstItem outer).Awaits (.items [] :: outer) := by
  intro lexeme hne
  cases lexeme with
  | closeArray => exact absurd rfl hne
  | _ => rfl

section

variable {state : Reading} {text rest : List Char}

theorem run_lexeme {lexeme : Lexeme} (h : lexemes? text = (lexemes? rest).map (lexeme :: ·)) :
    state.run text = (state.step lexeme).bind (·.run rest) := by
  unfold Reading.run
  rw [h]
  cases lexemes? rest with
  | none => cases state.step lexeme <;> rfl
  | some lexemes => exact List.foldlM_cons

theorem run_blank {c : Char} (hc : c = ' ' ∨ c = '\n') :
    state.run (c :: rest) = state.run rest := by
  unfold Reading.run
  rcases hc with rfl | rfl <;> rw [lexemes?]

/-- A line end and the blanks at the start of the line mean nothing. -/
theorem run_lineStart (depth : Nat) :
    state.run (Setting.indented.lineStart depth ++ rest) = state.run rest := by
  show state.run ('\n' :: (List.replicate (2 * depth) ' ' ++ rest)) = _
  rw [run_blank (Or.inr rfl)]
  induction 2 * depth with
  | zero => rfl
  | succ k ih => exact (run_blank (Or.inl rfl)).trans ih

end

/-- The outline is that of the value, wherever this is written. -/
structure Outlines (room : Nat) (value : Json) (outline : Outline) : Prop where
  run : ∀ {depth rest outer state}, Stops continues rest → Reading.Awaits state outer →
    state.run (writeOnto .indented depth rest value) = (Reading.after outline outer).run rest
  value : outline.value? room = some value

theorem outlines_leaf {room : Nat} {value : Json} {outline : Outline} (lexeme : Lexeme)
    (hwrite : ∀ depth rest, writeOnto .indented depth rest value = writeLeaf value ++ rest)
    (hlexeme : ∀ rest, Stops continues rest →
      lexemes? (writeLeaf value ++ rest) = (lexemes? rest).map (lexeme :: ·))
    (hbegin : ∀ outer, Reading.begin outer lexeme = some (.after outline outer))
    (hvalue : outline.value? room = some value) : Outlines room value outline where
  run := by
    intro depth rest outer state hs hstate
    -- no value begins with the end of an array, so the first item of one is a value like others
    have hne : lexeme ≠ .closeArray := by
      rintro rfl
      cases hbegin []
    rw [hwrite, run_lexeme (hlexeme rest hs), hstate lexeme hne, hbegin]
    rfl
  value := hvalue

/-! ## Items and members -/

theorem stops_lineStart (depth : Nat) (rest : List Char) :
    Stops continues (Setting.indented.lineStart depth ++ rest) := by
  intro c hc
  obtain rfl : '\n' = c := Option.some.inj hc
  decide

theorem stops_comma (rest : List Char) : Stops continues (',' :: rest) := by
  intro c hc
  obtain rfl : ',' = c := Option.some.inj hc
  decide

theorem stops_writeItems {rest : List Char} (hs : Stops continues rest) (depth : Nat)
    (items : List Json) : Stops continues (writeItems .indented depth rest items) := by
  cases items with
  | nil => exact hs
  | cons item items => exact stops_comma _

theorem stops_writeMembers {rest : List Char} (hs : Stops continues rest) (depth : Nat)
    (members : List (String × Json)) :
    Stops continues (writeMembers .indented depth rest members) := by
  cases members with
  | nil => exact hs
  | cons member members => exact stops_comma _

/-- The items after one that has just ended, up to the end of the array. -/
theorem run_items {room : Nat} {items : List Json} {outlines : List Outline}
    (h : List.Forall₂ (Outlines room) items outlines) (depth : Nat) (rest : List Char)
    (outer : List Container) (done : List Outline) (last : Outline) :
    (Reading.after last (.items done :: outer)).run (writeItems .indented (depth + 1)
        (Setting.indented.lineStart depth ++ ']' :: rest) items) =
      (Reading.after (.array (done.reverse ++ last :: outlines)) outer).run rest := by
  -- on the items that are left; those before `last` are `done`, in reverse
  induction h generalizing done last with
  | nil =>
      rw [writeItems, run_lineStart, run_lexeme (lexemes?_mark (c := ']') rfl _)]
      show (Reading.after (.array (last :: done).reverse) outer).run rest = _
      rw [List.reverse_cons]
  | cons hitem _ ih =>
      rw [writeItems, List.cons_append, run_lexeme (lexemes?_mark (c := ',') rfl _)]
      show (Reading.value (.items (last :: done) :: outer)).run _ = _
      rw [run_lineStart, hitem.run (stops_writeItems (stops_lineStart _ _) _ _) (awaits_value _),
        ih, List.reverse_cons, List.append_assoc]
      rfl

/-- A key and its value. -/
theorem run_member {room : Nat} {member : String × Json} {outline : Outline}
    (h : Outlines room member.2 outline) (state : Reading)
    (done : List (Option String × Outline)) (outer : List Container)
    (hstate : state.step (.text (some member.1)) = some (.colon done (some member.1) outer))
    (depth : Nat) {rest : List Char} (hs : Stops continues rest) :
    state.run (writeMember .indented depth rest member) =
      (Reading.after outline (.members done (some member.1) :: outer)).run rest := by
  rw [writeMember, List.append_assoc, run_lexeme (lexemes?_text _ _), hstate]
  show (Reading.colon done (some member.1) outer).run
    (':' :: ' ' :: writeOnto .indented depth rest member.2) = _
  rw [run_lexeme (lexemes?_mark (c := ':') rfl _)]
  show (Reading.value (.members done (some member.1) :: outer)).run (' ' :: _) = _
  rw [run_blank (Or.inl rfl), h.run hs (awaits_value _)]

/-- The members after one that has just ended, up to the end of the object. -/
theorem run_members {room : Nat} {members : List (String × Json)} {outlines : List Outline}
    (h : List.Forall₂ (fun member => Outlines room member.2) members outlines) (depth : Nat)
    (rest : List Char) (outer : List Container) (done : List (Option String × Outline))
    (key : Option String) (last : Outline) :
    (Reading.after last (.members done key :: outer)).run (writeMembers .indented (depth + 1)
        (Setting.indented.lineStart depth ++ '\x7d' :: rest) members) =
      (Reading.after (.object (done.reverse ++
        (key, last) :: (members.map (some ·.1)).zip outlines)) outer).run rest := by
  induction h generalizing done key last with
  | nil =>
      rw [writeMembers, run_lineStart, run_lexeme (lexemes?_mark (c := '\x7d') rfl _)]
      show (Reading.after (.object ((key, last) :: done).reverse) outer).run rest = _
      rw [List.reverse_cons]
      rfl
  | cons hmember _ ih =>
      rw [writeMembers, List.cons_append, run_lexeme (lexemes?_mark (c := ',') rfl _)]
      show (Reading.key ((key, last) :: done) outer).run _ = _
      rw [run_lineStart, run_member hmember (.key ((key, last) :: done) outer) _ _ rfl _
        (stops_writeMembers (stops_lineStart _ _) _ _), ih, List.reverse_cons, List.append_assoc]
      rfl

theorem run_array {room : Nat} {items : List Json} {outlines : List Outline}
    (h : List.Forall₂ (Outlines room) items outlines) {depth : Nat} {rest : List Char}
    {outer : List Container} {state : Reading} (hstate : state.Awaits outer) :
    state.run (writeOnto .indented depth rest (.array items)) =
      (Reading.after (.array outlines) outer).run rest := by
  have hopen : ∀ text, state.run ('[' :: text) = (Reading.firstItem outer).run text := by
    intro text
    rw [run_lexeme (lexemes?_mark (c := '[') rfl text), hstate _ (fun h => by cases h)]
    rfl
  cases h with
  | nil =>
      show state.run ('[' :: ']' :: rest) = _
      rw [hopen, run_lexeme (lexemes?_mark (c := ']') rfl _)]
      rfl
  | cons hitem hitems =>
      rw [writeOnto, List.cons_append, hopen, run_lineStart,
        hitem.run (stops_writeItems (stops_lineStart _ _) _ _) (awaits_firstItem _),
        run_items hitems]
      rfl

theorem run_object {room : Nat} {members : List (String × Json)} {outlines : List Outline}
    (h : List.Forall₂ (fun member => Outlines room member.2) members outlines) {depth : Nat}
    {rest : List Char} {outer : List Container} {state : Reading} (hstate : state.Awaits outer) :
    state.run (writeOnto .indented depth rest (.object members)) =
      (Reading.after (.object ((members.map (some ·.1)).zip outlines)) outer).run rest := by
  have hopen : ∀ text, state.run ('\x7b' :: text) = (Reading.firstKey outer).run text := by
    intro text
    rw [run_lexeme (lexemes?_mark (c := '\x7b') rfl text), hstate _ (fun h => by cases h)]
    rfl
  cases h with
  | nil =>
      show state.run ('\x7b' :: '\x7d' :: rest) = _
      rw [hopen, run_lexeme (lexemes?_mark (c := '\x7d') rfl _)]
      rfl
  | cons hmember hmembers =>
      rw [writeOnto, List.cons_append, hopen, run_lineStart,
        run_member hmember _ [] outer rfl _ (stops_writeMembers (stops_lineStart _ _) _ _),
        run_members hmembers]
      rfl

theorem itemValues?_outlines {room : Nat} {items : List Json} {outlines : List Outline}
    (h : List.Forall₂ (Outlines room) items outlines) : itemValues? room outlines = some items := by
  induction h with
  | nil => rfl
  | cons hitem _ ih => simp [itemValues?, hitem.value, ih]

theorem memberValues?_outlines {room : Nat} {members : List (String × Json)}
    {outlines : List Outline}
    (h : List.Forall₂ (fun member => Outlines room member.2) members outlines) :
    memberValues? room ((members.map (some ·.1)).zip outlines) = some members := by
  induction h with
  | nil => rfl
  | cons hmember _ ih => simp [memberValues?, memberValue?, hmember.value, ih]

/-! ## Values -/

/-- A value that is read as it was written: its numbers are legible, no key occurs twice in an
object, and at most `room` containers are nested. -/
inductive Legible : Nat → Json → Prop where
  | null {room : Nat} : Legible room .null
  | bool {room : Nat} (value : Bool) : Legible room (.bool value)
  | number {room : Nat} {n : Number} (h : n.Legible) : Legible room (.number n)
  | text {room : Nat} (value : String) : Legible room (.text value)
  | array {room : Nat} {items : List Json} (h : ∀ item ∈ items, Legible room item) :
    Legible (room + 1) (.array items)
  | object {room : Nat} {members : List (String × Json)} (hkeys : (members.map (·.1)).Nodup)
    (h : ∀ member ∈ members, Legible room member.2) : Legible (room + 1) (.object members)

theorem exists_forall₂ {α β : Type} {R : α → β → Prop} {xs : List α} (h : ∀ x ∈ xs, ∃ y, R x y) :
    ∃ ys, List.Forall₂ R xs ys := by
  induction xs with
  | nil => exact ⟨[], .nil⟩
  | cons x rest ih =>
      rw [List.forall_mem_cons] at h
      obtain ⟨y, hy⟩ := h.1
      obtain ⟨ys, hys⟩ := ih h.2
      exact ⟨y :: ys, .cons hy hys⟩

/-- **A legible value has an outline wherever it is written.** -/
theorem Legible.outlined {room : Nat} {value : Json} (h : Legible room value) :
    ∃ outline, Outlines room value outline := by
  induction h with
  | null =>
      refine ⟨.null, outlines_leaf .null (fun _ _ => rfl) (fun rest _ => ?_)
        (fun _ => rfl) rfl⟩
      show lexemes? ('n' :: 'u' :: 'l' :: 'l' :: rest) = _
      rw [lexemes?]
  | bool b =>
      refine ⟨.bool b, outlines_leaf (.bool b) (fun _ _ => rfl) (fun rest _ => ?_)
        (fun _ => rfl) rfl⟩
      cases b with
      | true =>
          show lexemes? ('t' :: 'r' :: 'u' :: 'e' :: rest) = _
          rw [lexemes?]
      | false =>
          show lexemes? ('f' :: 'a' :: 'l' :: 's' :: 'e' :: rest) = _
          rw [lexemes?]
  | @number _ n hn =>
      exact ⟨.number (some n), outlines_leaf (.number (some n)) (fun _ _ => rfl)
        (fun _ hs => lexemes?_number hn hs) (fun _ => rfl) rfl⟩
  | text t =>
      exact ⟨.text (some t), outlines_leaf (.text (some t)) (fun _ _ => rfl)
        (fun rest _ => lexemes?_text t rest) (fun _ => rfl) rfl⟩
  | @array room items _ ih =>
      -- the outlines of the items, one for each
      obtain ⟨outlines, hall⟩ := exists_forall₂ ih
      refine ⟨.array outlines, fun _ hstate => run_array hall hstate, ?_⟩
      simp [Outline.value?, itemValues?_outlines hall]
  | @object room members _ _ ih =>
      obtain ⟨outlines, hall⟩ := exists_forall₂ ih
      refine ⟨_, fun _ hstate => run_object hall hstate, ?_⟩
      simp [Outline.value?, memberValues?_outlines hall]

/-- A key that is new is put at the end. -/
theorem put_new {key : String} {value : Json} {members : List (String × Json)}
    (h : key ∉ members.map (·.1)) : put key value members = members ++ [(key, value)] := by
  induction members with
  | nil => rfl
  | cons member rest ih =>
      rw [List.map_cons, List.mem_cons, not_or] at h
      rw [put, if_neg (Ne.symm h.1), ih h.2]
      rfl

theorem settledItems_eq {items : List Json} (h : ∀ item ∈ items, settled item = item) :
    settledItems items = items := by
  induction items with
  | nil => rfl
  | cons item rest ih =>
      rw [List.forall_mem_cons] at h
      rw [settledItems, h.1, ih h.2]

theorem settledMembers_eq {members : List (String × Json)}
    (h : ∀ member ∈ members, settled member.2 = member.2) (done : List (String × Json))
    (hkeys : ((done ++ members).map (·.1)).Nodup) :
    settledMembers done members = done ++ members := by
  induction members generalizing done with
  | nil => exact (List.append_nil _).symm
  | cons member rest ih =>
      rw [List.forall_mem_cons] at h
      have hmember : settledMember member = member := by
        rw [settledMember, h.1]
      -- a key that occurs again would take the place of the member that is there
      have hnew : member.1 ∉ done.map (·.1) := by
        rw [List.map_append, List.nodup_append] at hkeys
        exact fun hmem => hkeys.2.2 _ hmem _ List.mem_cons_self rfl
      rw [settledMembers, hmember, put_new hnew, ih h.2 _ (by simpa using hkeys),
        List.append_assoc]
      rfl

/-- A legible value has one member for each key. -/
theorem Legible.settled_eq {room : Nat} {value : Json} (h : Legible room value) :
    settled value = value := by
  induction h with
  | null | bool | number | text => rfl
  | array _ ih => rw [settled, settledItems_eq ih]
  | object hkeys _ ih => rw [settled, settledMembers_eq ih [] hkeys, List.nil_append]

/-- **A legible value is read as it was written.** -/
theorem read?_pretty {value : Json} (h : Legible depthLimit value) :
    read? value.pretty = some value := by
  obtain ⟨outline, hrun, hvalue⟩ := h.outlined
  have hnil : Stops continues [] := fun _ h => by cases h
  have hread : (Reading.value []).run (writeOnto .indented 0 [] value) =
      some (.after outline []) := by
    rw [hrun hnil (awaits_value []), Reading.run, lexemes?]
    rfl
  have houtline : Outline.read? value.pretty = some outline := by
    obtain ⟨lexemes, hlexemes, hfold⟩ := Option.bind_eq_some_iff.mp hread
    rw [Outline.read?, pretty, String.toList_ofList, hlexemes, Option.bind_some, outlineOf?, hfold]
  rw [read?, houtline, Option.bind_some, hvalue, Option.map_some, h.settled_eq]

end ErModel.Json
