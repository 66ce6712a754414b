/-!
# Codes

New ids are told apart by codes of hexadecimal digits. Which codes come next is not known, only that
none of them comes twice. A counter gives such codes: its value can be read back from its digits.
-/

namespace ErModel

/-- The hexadecimal digits. -/
def hexadecimal : List Char := "0123456789abcdef".toList

/-- A sequence of codes. Each has hexadecimal digits, at least one, and no code comes twice. -/
class IdCodes where
  code : Nat → String
  ne_empty : ∀ n, code n ≠ ""
  digits : ∀ n, ∀ c ∈ (code n).toList, c ∈ hexadecimal
  injective : Function.Injective code

/-! ## A counter -/

/-- A counter as at least twelve lower-case hexadecimal digits. -/
def counter (n : Nat) : String :=
  let digits := Nat.toDigits 16 n
  String.ofList (List.replicate (12 - digits.length) '0' ++ digits)

theorem counter_ne_empty (n : Nat) : counter n ≠ "" := by
  intro he
  have hlength := congrArg (fun text : String => text.toList.length) he
  simp only [counter, String.toList_ofList, List.length_append, List.length_replicate,
    String.toList_empty, List.length_nil] at hlength
  omega

theorem mem_toDigits {n : Nat} {c : Char} (hc : c ∈ Nat.toDigits 16 n) :
    ∃ d < 16, c = Nat.digitChar d := by
  induction n using Nat.strongRecOn with
  | ind n ih =>
      by_cases hn : n < 16
      · rw [Nat.toDigits_of_lt_base hn, List.mem_singleton] at hc
        exact ⟨n, hn, hc⟩
      · rw [Nat.toDigits_of_base_le (by omega) (by omega), List.mem_append] at hc
        rcases hc with hc | hc
        · exact ih (n / 16) (by omega) hc
        · exact ⟨n % 16, Nat.mod_lt _ (by omega), List.mem_singleton.mp hc⟩

theorem mem_counter {n : Nat} {c : Char} (hc : c ∈ (counter n).toList) : c ∈ hexadecimal := by
  have hdigit : ∀ d < 16, Nat.digitChar d ∈ hexadecimal := by decide
  rw [counter, String.toList_ofList, List.mem_append] at hc
  rcases hc with hc | hc
  · rw [(List.mem_replicate.mp hc).2]
    exact hdigit 0 (by omega)
  · obtain ⟨d, hd, rfl⟩ := mem_toDigits hc
    exact hdigit d hd

/-- The value of hexadecimal digits. -/
def hexValue (digits : List Char) : Nat :=
  digits.foldl (fun n c => 16 * n + hexadecimal.idxOf c) 0

theorem hexValue_append_digit (digits : List Char) {d : Nat} (hd : d < 16) :
    hexValue (digits ++ [Nat.digitChar d]) = 16 * hexValue digits + d := by
  have hdigit : ∀ d < 16, hexadecimal.idxOf (Nat.digitChar d) = d := by decide
  rw [hexValue, List.foldl_append, List.foldl_cons, List.foldl_nil, hdigit d hd]
  rfl

theorem hexValue_toDigits (n : Nat) : hexValue (Nat.toDigits 16 n) = n := by
  induction n using Nat.strongRecOn with
  | ind n ih =>
      by_cases hn : n < 16
      · rw [Nat.toDigits_of_lt_base hn]
        exact (hexValue_append_digit [] hn).trans (by simp [hexValue])
      · rw [Nat.toDigits_of_base_le (by omega) (by omega),
          hexValue_append_digit _ (Nat.mod_lt _ (by omega)), ih (n / 16) (by omega)]
        omega

theorem hexValue_zeros (k : Nat) (digits : List Char) :
    hexValue (List.replicate k '0' ++ digits) = hexValue digits := by
  induction k with
  | zero => rfl
  | succ k ih =>
      rw [← ih]
      rfl

theorem counter_injective : Function.Injective counter := by
  intro m n h
  have hv := congrArg (fun s : String => hexValue s.toList) h
  simpa only [counter, String.toList_ofList, hexValue_zeros, hexValue_toDigits] using hv

/-- Where no other codes are named, a counter gives them. -/
instance : IdCodes where
  code := counter
  ne_empty := counter_ne_empty
  digits _ _ := mem_counter
  injective := counter_injective

end ErModel
