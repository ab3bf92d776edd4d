import Mathlib.Tactic.Common
import Mathlib.Algebra.Order.Field.Rat

/-! Bit vectors as sets of bits. -/

namespace MochaHal.Bits

variable {w : Nat} {a b c : BitVec w}

/-- The bits that are set. -/
def popcount (a : BitVec w) : Nat := (List.range w).countP fun i => a.getLsbD i

theorem zero_getLsbD (i : Nat) : (0 : BitVec w).getLsbD i = false := BitVec.getLsbD_zero

theorem ne_zero_iff : a ≠ 0 ↔ ∃ i, a.getLsbD i = true := by
  constructor
  · intro h
    by_contra hnone
    refine h (BitVec.eq_of_getLsbD_eq fun i _ => ?_)
    rw [zero_getLsbD, ← Bool.not_eq_true]
    exact fun hi => hnone ⟨i, hi⟩
  · rintro ⟨i, hi⟩ rfl
    rw [zero_getLsbD] at hi
    cases hi

theorem and_ne_zero_iff : a &&& b ≠ 0 ↔ ∃ i, a.getLsbD i = true ∧ b.getLsbD i = true := by
  rw [ne_zero_iff]
  simp only [BitVec.getLsbD_and, Bool.and_eq_true]

/-- Inclusion. -/
def Incl (a b : BitVec w) : Prop := ∀ i, a.getLsbD i = true → b.getLsbD i = true

theorem incl_and_left (a b : BitVec w) : Incl (a &&& b) a := by
  intro i hi
  rw [BitVec.getLsbD_and, Bool.and_eq_true] at hi
  exact hi.1

theorem incl_and_right (a b : BitVec w) : Incl (a &&& b) b := by
  intro i hi
  rw [BitVec.getLsbD_and, Bool.and_eq_true] at hi
  exact hi.2

theorem incl_or_left (a b : BitVec w) : Incl a (a ||| b) := by
  intro i hi
  rw [BitVec.getLsbD_or, hi, Bool.true_or]

theorem incl_or_right (a b : BitVec w) : Incl b (a ||| b) := by
  intro i hi
  rw [BitVec.getLsbD_or, hi, Bool.or_true]

theorem and_eq_self_iff : a &&& b = a ↔ Incl a b := by
  constructor
  · intro h i hi
    rw [← h] at hi
    exact incl_and_right a b i hi
  · intro h
    refine BitVec.eq_of_getLsbD_eq fun i _ => ?_
    rw [BitVec.getLsbD_and, Bool.and_eq_left_iff_imp]
    exact h i

theorem Incl.and_right (h : Incl a b) (c : BitVec w) : Incl (a &&& c) (b &&& c) := by
  intro i hi
  rw [BitVec.getLsbD_and, Bool.and_eq_true] at hi ⊢
  exact ⟨h i hi.1, hi.2⟩

/-- A larger set meets more. -/
theorem Incl.meets (h : Incl a b) (hc : c &&& a ≠ 0) : c &&& b ≠ 0 := by
  obtain ⟨i, hci, hai⟩ := and_ne_zero_iff.mp hc
  exact and_ne_zero_iff.mpr ⟨i, hci, h i hai⟩

/-- Removing a set that is disjoint removes nothing. -/
theorem and_not_of_disjoint (h : a &&& b = 0) : b &&& ~~~a = b := by
  refine BitVec.eq_of_getLsbD_eq fun i hi => ?_
  have hbit : (a.getLsbD i && b.getLsbD i) = false := by
    rw [← BitVec.getLsbD_and, h, zero_getLsbD]
  rw [BitVec.getLsbD_and, BitVec.getLsbD_not]
  cases hb : b.getLsbD i with
  | false => rfl
  | true =>
    rw [hb, Bool.and_true] at hbit
    rw [hbit, decide_eq_true hi]
    rfl

/-- Removing two sets one after the other. -/
theorem and_not_or : a &&& ~~~(b ||| c) = a &&& ~~~b &&& ~~~c := by
  rw [BitVec.not_or, BitVec.and_assoc]

end MochaHal.Bits
