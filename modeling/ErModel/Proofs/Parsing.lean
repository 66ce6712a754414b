import ErModel.Proofs.Common
import ErModel.Source.Parser

/-!
# What parsing guarantees

A parser that reads something leaves what follows to the next one. A text that is parsed has no two
entities of one name, and no entity two properties of one name.
-/

namespace ErModel.Source

/-- A parser gives this value, and leaves these tokens. -/
def Reads {α : Type} {bound : Nat} (parsed : Parse α bound) (value : α) (rest : List Token) : Prop :=
  ∃ shorter, parsed = .ok ⟨value, rest, shorter⟩

theorem Reads.bind {α β : Type} {m n : Nat} {parsed : Parse α m} {value : α} {rest : List Token}
    {next : Parsed α m → Parse β n} {result : β} {rest' : List Token} (h : Reads parsed value rest)
    (hn : ∀ shorter, Reads (next ⟨value, rest, shorter⟩) result rest') :
    Reads (parsed >>= next) result rest' := by
  obtain ⟨shorter, rfl⟩ := h
  exact hn shorter

/-- Names tell the entities of a document apart, and the properties of each entity. -/
structure Document.Distinct (document : Document) : Prop where
  entities : (document.entities.map (·.name)).Nodup
  properties : ∀ e ∈ document.entities, (e.properties.map (·.name)).Nodup

theorem body_newTo {entity : String} {seen : List String} {tokens : List Token}
    {r : Parsed (List Hint × List Property) tokens.length} (h : body entity seen tokens = .ok r) :
    NewTo (·.name) seen r.value.2 := by
  fun_induction body entity seen tokens with
  | case1 seen rest =>
      cases h
      simp [NewTo]
  | case2 seen rest ih =>
      obtain ⟨⟨first, rest', hlt⟩, -, h⟩ := bind_eq_ok.mp h
      obtain ⟨⟨⟨hints, properties⟩, rest'', hlt'⟩, hbody, h⟩ := bind_eq_ok.mp h
      cases h
      exact ih rest' hlt hbody
  | case3 seen tokens _ _ ih =>
      obtain ⟨⟨first, rest, hlt⟩, -, h⟩ := bind_eq_ok.mp h
      dsimp only at h
      split at h
      · obtain ⟨_, hthrow, -⟩ := bind_eq_ok.mp h
        exact absurd hthrow throw_ne_ok
      · rename_i hnew
        obtain ⟨⟨⟨hints, properties⟩, rest', hlt'⟩, hbody, h⟩ := bind_eq_ok.mp h
        cases h
        exact newTo_cons.mpr ⟨hnew, ih first rest hlt hbody⟩

theorem entity_distinct {tokens : List Token} {r : Parsed Entity tokens.length}
    (h : entity tokens = .ok r) : (r.value.properties.map (·.name)).Nodup := by
  unfold entity at h
  obtain ⟨⟨word, rest₁, h₁⟩, -, h⟩ := bind_eq_ok.mp h
  obtain ⟨⟨_, rest₂, h₂⟩, -, h⟩ := bind_eq_ok.mp h
  obtain ⟨⟨⟨hints, properties⟩, rest₃, h₃⟩, hbody, h⟩ := bind_eq_ok.mp h
  cases h
  exact newTo_nil.mp (body_newTo hbody)

theorem entities_newTo {seen : List String} {tokens : List Token} {es : List Entity}
    (h : entities seen tokens = .ok es) :
    NewTo (·.name) seen es ∧ ∀ e ∈ es, (e.properties.map (·.name)).Nodup := by
  fun_induction entities seen tokens generalizing es with
  | case1 | case2 =>
      cases h
      simp [NewTo]
  | case3 seen rest ih =>
      obtain ⟨⟨first, rest', hlt⟩, hfirst, h⟩ := bind_eq_ok.mp h
      dsimp only at h
      split at h
      · obtain ⟨_, hthrow, -⟩ := bind_eq_ok.mp h
        exact absurd hthrow throw_ne_ok
      · rename_i hnew
        obtain ⟨more, hmore, h⟩ := bind_eq_ok.mp h
        cases h
        obtain ⟨hn, hp⟩ := ih first rest' hlt hmore
        refine ⟨newTo_cons.mpr ⟨hnew, hn⟩, ?_⟩
        rw [List.forall_mem_cons]
        exact ⟨entity_distinct hfirst, hp⟩
  | case4 => cases h

/-- **A text that is parsed uses no name twice.** -/
theorem parse_distinct {source : String} {document : Document} (h : parse source = .ok document) :
    document.Distinct := by
  unfold parse at h
  split at h
  · cases h
  · obtain ⟨es, hes, rfl⟩ := map_eq_ok.mp h
    obtain ⟨hn, hp⟩ := entities_newTo hes
    exact ⟨newTo_nil.mp hn, hp⟩

end ErModel.Source
