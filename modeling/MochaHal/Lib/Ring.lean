import Mathlib.Tactic.Common
import Mathlib.Algebra.Order.Field.Rat
import Mathlib.Data.List.Range

/-! Cells in a circle.  `slot cap start i` is the cell `i` places after `start`,
`contents` reads a run of cells in order, and `ahead` counts the places from one
cell to another. -/

namespace MochaHal.Ring

variable {α : Type} {cap start i j : Nat}

def slot (cap start i : Nat) : Nat := (start + i) % cap

/-- One turn at most, so a comparison and a subtraction will do. -/
theorem slot_eq (hs : start < cap) (hi : i ≤ cap) :
    slot cap start i = if start + i < cap then start + i else start + i - cap := by
  unfold slot
  split
  case isTrue h => exact Nat.mod_eq_of_lt h
  case isFalse h =>
    rw [Nat.mod_eq_sub_mod (by omega), Nat.mod_eq_of_lt (by omega)]

theorem slot_lt (hs : start < cap) (i : Nat) : slot cap start i < cap :=
  Nat.mod_lt _ (by omega)

theorem slot_zero (hs : start < cap) : slot cap start 0 = start := Nat.mod_eq_of_lt hs

theorem slot_slot : slot cap (slot cap start i) j = slot cap start (i + j) := by
  unfold slot
  rw [Nat.mod_add_mod, Nat.add_assoc]

/-- Cells less than a turn apart are different. -/
theorem slot_ne (hs : start < cap) (hij : i < j) (hj : j < cap) :
    slot cap start i ≠ slot cap start j := by
  rw [slot_eq hs (by omega), slot_eq hs (by omega)]
  split <;> split <;> omega

/-! ## Contents -/

/-- The contents of `size` cells from `start` on. -/
def contents (data : Nat → α) (cap start size : Nat) : List α :=
  (List.range size).map fun i => data (slot cap start i)

variable {data data' : Nat → α} {size : Nat}

theorem contents_congr (h : ∀ i, i < size → data (slot cap start i) = data' (slot cap start i)) :
    contents data cap start size = contents data' cap start size :=
  List.map_congr_left fun i hi => h i (List.mem_range.mp hi)

/-- Cells behind the last one are appended. -/
theorem contents_add (k : Nat) : contents data cap start (size + k) =
    contents data cap start size ++ contents data cap (slot cap start size) k := by
  unfold contents
  rw [List.range_add, List.map_append, List.map_map]
  refine congrArg _ (List.map_congr_left fun i _ => ?_)
  show data (slot cap start (size + i)) = data (slot cap (slot cap start size) i)
  rw [slot_slot]

/-- The first cell comes off at the front. -/
theorem contents_succ (hs : start < cap) : contents data cap start (size + 1) =
    data start :: contents data cap (slot cap start 1) size := by
  rw [Nat.add_comm, contents_add]
  show [data (slot cap start 0)] ++ _ = _
  rw [slot_zero hs]
  rfl

/-! ## Places ahead -/

/-- How many places after `start` the cell `i` is. -/
def ahead (cap start i : Nat) : Nat := (i + cap - start) % cap

theorem ahead_eq (hs : start < cap) (hi : i < cap) :
    ahead cap start i = if start ≤ i then i - start else i + cap - start := by
  unfold ahead
  split
  case isTrue h => rw [Nat.mod_eq_sub_mod (by omega), Nat.mod_eq_of_lt (by omega)]; omega
  case isFalse h => exact Nat.mod_eq_of_lt (by omega)

theorem ahead_lt (hi : i < cap) : ahead cap start i < cap := Nat.mod_lt _ (by omega)

/-- A step forward brings every other cell one place nearer. -/
theorem ahead_step (hs : start < cap) (hi : i < cap) (hne : i ≠ start) :
    ahead cap (slot cap start 1) i + 1 = ahead cap start i := by
  rw [ahead_eq (slot_lt hs 1) hi, ahead_eq hs hi, slot_eq hs (by omega)]
  split <;> split <;> split <;> omega

end MochaHal.Ring
