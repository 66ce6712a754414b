import Mathlib.Data.List.Perm.Basic
import Mathlib.Logic.Function.Basic

/-!
# Numbers in blocks

Things that are made one after another number what they are made of, and each goes on where the one
before it has stopped. So each has a block of numbers, and another order moves the blocks: the
numbers of one block stay together, and the numbers before the first block and behind the last one
stay what they are.
-/

namespace ErModel

-- Sums start at the zero of the core library.
attribute [local instance (1001)] Zero.ofOfNat0

variable {α : Type} {size : α → Nat}

/-- The elements, each beside the first number of its block. -/
def places (size : α → Nat) : Nat → List α → List (α × Nat)
  | _, [] => []
  | start, x :: rest => (x, start) :: places size (start + size x) rest

theorem le_of_mem_places {start : Nat} {xs : List α} {p : α × Nat}
    (hp : p ∈ places size start xs) : start ≤ p.2 := by
  induction xs generalizing start with
  | nil => cases hp
  | cons x rest ih =>
      rcases List.mem_cons.mp hp with rfl | hp
      · exact Nat.le_refl _
      · exact Nat.le_trans (Nat.le_add_right _ _) (ih hp)

/-- The last block ends where all numbers end. -/
theorem places_le {start : Nat} {xs : List α} {p : α × Nat} (hp : p ∈ places size start xs) :
    p.2 + size p.1 ≤ start + (xs.map size).sum := by
  induction xs generalizing start with
  | nil => cases hp
  | cons x rest ih =>
      rw [List.map_cons, List.sum_cons]
      rcases List.mem_cons.mp hp with rfl | hp
      · dsimp only
        omega
      · have := ih hp
        omega

theorem map_fst_places (size : α → Nat) (start : Nat) (xs : List α) :
    (places size start xs).map (·.1) = xs := by
  induction xs generalizing start with
  | nil => rfl
  | cons x rest ih => rw [places, List.map_cons, ih]

theorem fst_mem_of_mem_places {start : Nat} {xs : List α} {p : α × Nat}
    (hp : p ∈ places size start xs) : p.1 ∈ xs := by
  rw [← map_fst_places size start xs]
  exact List.mem_map.mpr ⟨p, hp, rfl⟩

/-- The elements of a list are changed, and their blocks are left. -/
theorem places_map {β : Type} {size' : β → Nat} {f : α → β} (hf : ∀ x, size' (f x) = size x)
    (start : Nat) (xs : List α) :
    places size' start (xs.map f) = (places size start xs).map (Prod.map f id) := by
  induction xs generalizing start with
  | nil => rfl
  | cons x rest ih =>
      rw [List.map_cons, places, places, List.map_cons, hf, ih]
      rfl

theorem places_append (start : Nat) (xs ys : List α) :
    places size start (xs ++ ys) =
      places size start xs ++ places size (start + (xs.map size).sum) ys := by
  induction xs generalizing start with
  | nil => rfl
  | cons x rest ih =>
      rw [List.cons_append, places, ih, places, List.map_cons, List.sum_cons, Nat.add_assoc]
      rfl

/-- Numbers that stay in a row make the same blocks elsewhere. -/
theorem places_shift {place : Nat → Nat} {start start' : Nat} {xs : List α}
    (hsize : ∀ x ∈ xs, 0 < size x) (h : ∀ i < (xs.map size).sum, place (start + i) = start' + i) :
    (places size start xs).map (Prod.map id place) = places size start' xs := by
  induction xs generalizing start start' with
  | nil => rfl
  | cons x rest ih =>
      rw [List.forall_mem_cons] at hsize
      rw [List.map_cons, List.sum_cons] at h
      have hfirst : place start = start' := h 0 (by omega)
      rw [places, List.map_cons, places, Prod.map_apply, hfirst, ih hsize.2 fun i hi => ?_]
      · rfl
      · rw [Nat.add_assoc, h (size x + i) (by omega), Nat.add_assoc]

/-- The number `gap` is taken out, and the numbers up to `last` close up. -/
def closeUp (gap last k : Nat) : Nat :=
  if k < gap then k
  else if k = gap then last
  else if k ≤ last then k - 1
  else k

theorem closeUp_injective {gap last : Nat} (h : gap ≤ last) :
    Function.Injective (closeUp gap last) := by
  intro i j he
  unfold closeUp at he
  split_ifs at he <;> omega

theorem closeUp_of_lt {gap last k : Nat} (h : k < gap) : closeUp gap last k = k := if_pos h

theorem closeUp_succ {gap last k : Nat} (h : gap ≤ k) (hk : k < last) :
    closeUp gap last (k + 1) = k := by
  unfold closeUp
  split_ifs <;> omega

/-- The blocks of `xs`, which has `total` numbers from `start` on, are moved to those of `ys`. -/
structure MovesBlocks (size : α → Nat) (start total : Nat) (xs ys : List (α × Nat))
    (move : Nat → Nat) : Prop where
  injective : Function.Injective move
  before : ∀ k < start, move k = k
  behind : ∀ k, start + total ≤ k → move k = k
  block : ∀ p ∈ xs, ∀ i < size p.1, move (p.2 + i) = move p.2 + i
  perm : (xs.map (Prod.map id move)).Perm ys

/-- The numbers of the blocks stay among themselves. -/
theorem MovesBlocks.lt {start total : Nat} {xs ys : List (α × Nat)} {move : Nat → Nat}
    (h : MovesBlocks size start total xs ys move) {k : Nat} (hk : k < start + total) :
    move k < start + total := by
  refine Nat.lt_of_not_le fun hle => ?_
  have := h.injective (h.behind _ hle)
  omega

/-- Two blocks change places. -/
def swapBlocks (start first second k : Nat) : Nat :=
  if k < start then k
  else if k < start + first then k + second
  else if k < start + first + second then k - first
  else k

theorem movesBlocks_swap (hsize : ∀ x, 0 < size x) (start : Nat) (x y : α) (rest : List α) :
    MovesBlocks size start ((y :: x :: rest).map size).sum (places size start (y :: x :: rest))
      (places size start (x :: y :: rest)) (swapBlocks start (size y) (size x)) := by
  have hx := hsize x
  have hy := hsize y
  have hbehind : ∀ k, start + size y + size x ≤ k → swapBlocks start (size y) (size x) k = k := by
    intro k hk
    unfold swapBlocks
    split_ifs <;> omega
  refine ⟨fun i j he => ?_, fun k hk => if_pos hk, fun k hk => hbehind k ?_, ?_, ?_⟩
  · unfold swapBlocks at he
    split_ifs at he <;> omega
  · simp only [List.map_cons, List.sum_cons] at hk
    omega
  · intro p hp i hi
    rcases List.mem_cons.mp hp with rfl | hp
    · dsimp only at hi ⊢
      unfold swapBlocks
      split_ifs <;> omega
    · rcases List.mem_cons.mp hp with rfl | hp
      · dsimp only at hi ⊢
        unfold swapBlocks
        split_ifs <;> omega
      · have hle := le_of_mem_places hp
        rw [hbehind _ hle, hbehind _ (by omega)]
  · have hfirst : swapBlocks start (size y) (size x) start = start + size x := by
      unfold swapBlocks
      split_ifs <;> omega
    have hsecond : swapBlocks start (size y) (size x) (start + size y) = start := by
      unfold swapBlocks
      split_ifs <;> omega
    have hrest : (places size (start + size y + size x) rest).map
        (Prod.map id (swapBlocks start (size y) (size x))) =
          places size (start + size x + size y) rest := by
      rw [Nat.add_right_comm start (size x)]
      refine (List.map_congr_left fun p hp => ?_).trans (List.map_id _)
      exact Prod.ext rfl (hbehind p.2 (le_of_mem_places hp))
    simp only [places, List.map_cons, Prod.map_apply, id_eq, hfirst, hsecond, hrest]
    exact List.Perm.swap ..

/-- **Another order moves the blocks.** -/
theorem exists_movesBlocks (hsize : ∀ x, 0 < size x) {xs ys : List α} (h : xs.Perm ys)
    (start : Nat) : ∃ move,
      MovesBlocks size start (xs.map size).sum (places size start xs) (places size start ys)
        move := by
  induction h generalizing start with
  | nil => exact ⟨id, Function.injective_id, fun _ _ => rfl, fun _ _ => rfl, by simp [places], .nil⟩
  | @cons x xs ys hperm ih =>
      obtain ⟨move, hmove⟩ := ih (start + size x)
      have hx := hsize x
      have hfirst : ∀ i < size x, move (start + i) = start + i := fun i hi =>
        hmove.before _ (by omega)
      refine ⟨move, hmove.injective, fun k hk => hmove.before k (by omega), fun k hk => ?_, ?_, ?_⟩
      · rw [List.map_cons, List.sum_cons] at hk
        exact hmove.behind k (by omega)
      · intro p hp i hi
        rcases List.mem_cons.mp hp with rfl | hp
        · rw [hfirst i hi, hmove.before start (by omega)]
        · exact hmove.block p hp i hi
      · rw [places, places, List.map_cons, Prod.map_apply, id_eq, hmove.before start (by omega)]
        exact hmove.perm.cons _
  | swap x y rest => exact ⟨_, movesBlocks_swap hsize start x y rest⟩
  | @trans xs ys zs hxy hyz ih ih' =>
      obtain ⟨move, hmove⟩ := ih start
      obtain ⟨move', hmove'⟩ := ih' start
      have htotal : (ys.map size).sum = (xs.map size).sum := (hxy.map size).symm.sum_nat
      rw [htotal] at hmove'
      refine ⟨move' ∘ move, hmove'.injective.comp hmove.injective, fun k hk => ?_, fun k hk => ?_,
        fun p hp i hi => ?_, ?_⟩
      · rw [Function.comp_apply, hmove.before k hk, hmove'.before k hk]
      · rw [Function.comp_apply, hmove.behind k hk, hmove'.behind k hk]
      · have hmem : (p.1, move p.2) ∈ places size start ys :=
          hmove.perm.mem_iff.mp (List.mem_map.mpr ⟨p, hp, rfl⟩)
        rw [Function.comp_apply, Function.comp_apply, hmove.block p hp i hi]
        exact hmove'.block _ hmem i hi
      · have hmap := (hmove.perm.map (Prod.map id move')).trans hmove'.perm
        rwa [List.map_map] at hmap

/-- Of the numbers below `total`, those behind `gap` close up. -/
structure ClosesUp (place : Nat → Nat) (gap total : Nat) : Prop where
  below : ∀ k < gap, place k = k
  above : ∀ k, gap ≤ k → k + 1 < total → place (k + 1) = k

/-- **A number before all blocks is taken out**, and the blocks close up, in another order. -/
theorem exists_closesUp (hsize : ∀ x, 0 < size x) {xs ys : List α} (h : xs.Perm ys)
    {gap n : Nat} (hgap : gap ≤ n) : ∃ place, Function.Injective place ∧
      ClosesUp place gap (n + 1) ∧
      (∀ p ∈ places size (n + 1) xs, ∀ i < size p.1, place (p.2 + i) = place p.2 + i) ∧
      ((places size (n + 1) xs).map (Prod.map id place)).Perm (places size n ys) := by
  obtain ⟨move, hmove⟩ := exists_movesBlocks hsize h (n + 1)
  have htotal : (ys.map size).sum = (xs.map size).sum := (h.map size).symm.sum_nat
  let close := closeUp gap (n + (xs.map size).sum)
  have hclose : ∀ i < (xs.map size).sum, close (n + 1 + i) = n + i := by
    intro i hi
    rw [Nat.add_right_comm]
    exact closeUp_succ (by omega) (by omega)
  refine ⟨close ∘ move, (closeUp_injective (by omega)).comp hmove.injective,
    ⟨fun k hk => ?_, fun k hk hlt => ?_⟩, fun p hp i hi => ?_, ?_⟩
  · rw [Function.comp_apply, hmove.before k (by omega)]
    exact closeUp_of_lt hk
  · rw [Function.comp_apply, hmove.before (k + 1) hlt]
    exact closeUp_succ hk (by omega)
  · have hmem : (p.1, move p.2) ∈ places size (n + 1) ys :=
      hmove.perm.subset (List.mem_map.mpr ⟨p, hp, rfl⟩)
    have hle := le_of_mem_places hmem
    have hlt := places_le hmem
    dsimp only at hle hlt
    obtain ⟨j, hj⟩ := Nat.exists_eq_add_of_le hle
    rw [Function.comp_apply, Function.comp_apply, hmove.block p hp i hi, hj, Nat.add_assoc,
      hclose _ (by omega), hclose _ (by omega), Nat.add_assoc]
  · have hmap := hmove.perm.map (Prod.map id close)
    rw [List.map_map, places_shift (fun x _ => hsize x) fun i hi => hclose i (by omega)] at hmap
    exact hmap

end ErModel
