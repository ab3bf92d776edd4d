import Mathlib.Tactic.Common
import Mathlib.Algebra.Order.Field.Rat

/-! Pointers that count without an end in a circle of `bound` places.  `Stands bound p n`
says that the pointer `p` stands for the count `n`; the last place and the first may be
written either way.  The room and the fill of a buffer between two pointers are read off
the pointers alone, as long as the buffer is at most half of the circle. -/

namespace MochaHal.Pointers

variable {bound size p q n m : Nat}

def Stands (bound p n : Nat) : Prop := p ≤ bound ∧ p % bound = n % bound

theorem stands_mod (h : 0 < bound) (n : Nat) : Stands bound (n % bound) n :=
  ⟨(Nat.mod_lt n h).le, Nat.mod_mod n bound⟩

/-- A pointer in two forms: within the circle, or at its end for its start. -/
theorem Stands.cases (h : Stands bound p n) (hb : 0 < bound) :
    p = n % bound ∨ p = bound ∧ n % bound = 0 := by
  rcases Nat.lt_or_eq_of_le h.1 with hlt | rfl
  · exact .inl (by rw [← h.2, Nat.mod_eq_of_lt hlt])
  · exact .inr ⟨rfl, by rw [← h.2, Nat.mod_self]⟩

theorem mod_add (hb : 0 < bound) {k : Nat} (hk : k ≤ bound) :
    (n + k) % bound = if n % bound + k < bound then n % bound + k else n % bound + k - bound := by
  have hlt := Nat.mod_lt n hb
  rw [← Nat.mod_add_mod]
  split
  case isTrue h => exact Nat.mod_eq_of_lt h
  case isFalse h => rw [Nat.mod_eq_sub_mod (by omega), Nat.mod_eq_of_lt (by omega)]

/-- Cells of a buffer that divides the circle. -/
theorem Stands.cell (h : Stands bound p n) (hdvd : size ∣ bound) : p % size = n % size := by
  rw [← Nat.mod_mod_of_dvd p hdvd, h.2, Nat.mod_mod_of_dvd n hdvd]

def forward (bound p k : Nat) : Nat := if p + k > bound then p + k - bound else p + k

theorem Stands.forward (h : Stands bound p n) {k : Nat} (hk : k ≤ bound) :
    Stands bound (forward bound p k) (n + k) := by
  obtain ⟨hle, hmod⟩ := h
  have hadd : (p + k) % bound = (n + k) % bound := by rw [Nat.add_mod, hmod, ← Nat.add_mod]
  unfold Pointers.forward
  split
  case isTrue hgt =>
    refine ⟨by omega, ?_⟩
    rw [← hadd, Nat.mod_eq_sub_mod (show bound ≤ p + k by omega)]
  case isFalse hle => exact ⟨by omega, hadd⟩

/-- The room behind the pointer of a reader, as two pointers give it. -/
def room (bound size p q : Nat) : Int :=
  if (p : Int) + size - q < 0 then p + size - q + bound
  else if (p : Int) + size - q ≥ bound then p + size - q - bound
  else p + size - q

/-- A writer that is at most the buffer ahead of the reader. -/
theorem room_eq (hp : Stands bound p n) (hq : Stands bound q m) (hs : 0 < size)
    (hsize : 2 * size ≤ bound) (hnm : n ≤ m) (hmn : m ≤ n + size) :
    room bound size p q = size - (m - n) := by
  have hb : 0 < bound := by omega
  have hlt := Nat.mod_lt n hb
  have hadd := mod_add (n := n) (k := m - n) hb (by omega)
  rw [Nat.add_sub_cancel' hnm] at hadd
  have hp' := hp.cases hb
  have hq' := hq.cases hb
  unfold room
  split at hadd <;> split <;> try split
  all_goals omega

end MochaHal.Pointers
