/-!
# Stretches of code points

A character class is a list of stretches, each given by its first and last code point, in
increasing order. Looking a code point up walks the list and stops at the first stretch that
ends at or after it, so the order is what makes the answer right and the walk short.
-/

namespace ErModel.Text

/-- Stretches `(first, last)` of code points, increasing and apart from each other. -/
abbrev Spans := List (Nat × Nat)

/-- Whether code point `n` lies in one of the stretches. -/
def Spans.has : Spans → Nat → Bool
  | [], _ => false
  | (first, last) :: rest, n => if n ≤ last then decide (first ≤ n) else Spans.has rest n

/-- Whether the character lies in one of the stretches. -/
def Spans.holds (spans : Spans) (c : Char) : Bool := spans.has c.toNat

/-- Stretches `(first, last, step)` whose members are `step` apart: capitals and small letters
often alternate, and then every second code point is meant. -/
abbrev Combs := List (Nat × Nat × Nat)

/-- Whether code point `n` is a member of one of the combs. -/
def Combs.has : Combs → Nat → Bool
  | [], _ => false
  | (first, last, step) :: rest, n =>
    if n ≤ last then decide (first ≤ n) && (n - first) % step == 0 else Combs.has rest n

/-- What `has` says of increasing stretches: the code point is between the ends of one of them. -/
def Spans.Ordered (spans : Spans) : Prop :=
  spans.Pairwise (fun a b => a.2 < b.1) ∧ ∀ s ∈ spans, s.1 ≤ s.2

instance (spans : Spans) : Decidable spans.Ordered :=
  inferInstanceAs (Decidable (_ ∧ _))

theorem Spans.has_iff {spans : Spans} (h : spans.Ordered) (n : Nat) :
    spans.has n = true ↔ ∃ s ∈ spans, s.1 ≤ n ∧ n ≤ s.2 := by
  induction spans with
  | nil => simp [Spans.has]
  | cons s rest ih =>
    obtain ⟨hp, hs⟩ := h
    rw [List.pairwise_cons] at hp
    have ih := ih ⟨hp.2, fun t ht => hs t (List.mem_cons_of_mem _ ht)⟩
    rw [Spans.has]
    split
    · next hle =>
      simp only [decide_eq_true_eq, List.mem_cons, exists_eq_or_imp]
      constructor
      · exact fun hf => .inl ⟨hf, hle⟩
      · rintro (⟨hf, _⟩ | ⟨t, ht, hf, _⟩)
        · exact hf
        · have := hp.1 t ht
          have := hs s (List.mem_cons_self)
          omega
    · next hle =>
      rw [ih]
      simp only [List.mem_cons, exists_eq_or_imp]
      constructor
      · exact .inr
      · rintro (⟨_, hl⟩ | ht)
        · exact absurd hl hle
        · exact ht

end ErModel.Text
