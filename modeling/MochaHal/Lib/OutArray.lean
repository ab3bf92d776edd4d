import Mathlib.Tactic.Common
import Mathlib.Order.Lattice

/-! An array of a caller that a function fills.  A slot is `none` as long as nothing was
written to it, so that a slot that is written past the end is seen. -/

namespace MochaHal

def OutArray (α : Type) : Type := Nat → Option α

namespace OutArray

variable {α : Type}

def untouched : OutArray α := fun _ => none

def put (list : OutArray α) (idx : Nat) (a : α) : OutArray α := fun k => if k = idx then some a else list k

/-- The slots from `idx` on hold a list. -/
def place (list : OutArray α) (idx : Nat) (as : List α) : OutArray α :=
  fun k => if k < idx then list k else as[k - idx]?.or (list k)

variable {list : OutArray α} {idx : Nat}

theorem place_nil : list.place idx [] = list := by
  funext k
  unfold place
  split
  · rfl
  · rfl

theorem put_eq_place (a : α) : list.put idx a = list.place idx [a] := by
  funext k
  unfold put place
  rcases Nat.lt_trichotomy k idx with h | rfl | h
  · rw [if_neg (Nat.ne_of_lt h), if_pos h]
  · rw [if_pos rfl, if_neg (Nat.lt_irrefl k), Nat.sub_self]
    rfl
  · have hnone : [a][k - idx]? = none := List.getElem?_eq_none (Nat.sub_pos_of_lt h)
    rw [if_neg (Nat.ne_of_gt h), if_neg (Nat.lt_asymm h), hnone, Option.none_or]

theorem place_place (as bs : List α) :
    (list.place idx as).place (idx + as.length) bs = list.place idx (as ++ bs) := by
  funext k
  unfold place
  by_cases hidx : k < idx
  · rw [if_pos (by omega), if_pos hidx, if_pos hidx]
  · rw [if_neg hidx, if_neg hidx]
    by_cases has : k < idx + as.length
    · rw [if_pos has, List.getElem?_append_left (by omega)]
    · have hnone : as[k - idx]? = none := List.getElem?_eq_none (by omega)
      rw [if_neg has, hnone, Option.none_or, List.getElem?_append_right (by omega), Nat.sub_sub]

theorem place_cons (a : α) (as : List α) : (list.put idx a).place (idx + 1) as = list.place idx (a :: as) := by
  rw [put_eq_place]
  exact place_place [a] as

/-- A slot that is written again. -/
theorem put_place (a : α) {as : List α} (h : 0 < as.length) : (list.put idx a).place idx as = list.place idx as := by
  funext k
  unfold put place
  dsimp only
  by_cases hidx : k < idx
  · rw [if_pos hidx, if_pos hidx, if_neg (Nat.ne_of_lt hidx)]
  · rw [if_neg hidx, if_neg hidx]
    by_cases hk : k = idx
    · have hsome : as[k - idx]? = some as[0] := by
        rw [hk, Nat.sub_self]
        exact List.getElem?_eq_getElem h
      rw [hsome]
      rfl
    · rw [if_neg hk]

/-- Behind the list nothing changes. -/
theorem place_behind {as : List α} {k : Nat} (h : idx + as.length ≤ k) : list.place idx as k = list k := by
  unfold place
  rw [if_neg (by omega), List.getElem?_eq_none (by omega), Option.none_or]

theorem place_untouched (as : List α) (k : Nat) : untouched.place 0 as k = as[k]? := by
  unfold place untouched
  rw [if_neg (Nat.not_lt_zero k), Option.or_none, Nat.sub_zero]

end OutArray

end MochaHal
