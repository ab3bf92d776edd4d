import Mathlib.Tactic.Common

/-! A latch in discrete time.  At each time there may be a `start`, which sets it, and a
`reset`, which clears it.  A `start` that finds the latch clear *fires*.  The latch stands
in for an edge detector exactly when every run of starts but the first one follows a
reset (`fires_at_edges_iff`). -/

namespace MochaHal.Latch

variable (start reset : Nat → Prop)

/-- The latch is set at time `k`, before what happens then. -/
def Held : Nat → Prop
  | 0 => False
  | k + 1 => start k ∨ ¬ reset k ∧ Held k

/-- A start that follows no start. -/
def Edge (k : Nat) : Prop := start k ∧ ∀ j, k = j + 1 → ¬ start j

/-- Between two starts of different runs there is a reset. -/
def ResetBetween : Prop :=
  ∀ i j k, i < j → j < k → start i → start k → ¬ start j → ∃ m, i < m ∧ m < k ∧ reset m

variable {start reset} {k : Nat}

theorem held_iff : Held start reset k ↔
    ∃ j, j < k ∧ start j ∧ ∀ i, j < i → i < k → ¬ reset i := by
  induction k with
  | zero => simp [Held]
  | succ k ih =>
    simp only [Held, ih]
    constructor
    · rintro (hk | ⟨hreset, j, hj, hstart, hnone⟩)
      · exact ⟨k, by omega, hk, fun i h1 h2 => by omega⟩
      · refine ⟨j, by omega, hstart, ?_⟩
        intro i h1 h2
        by_cases hik : i = k
        · exact hik ▸ hreset
        · exact hnone i h1 (by omega)
    · rintro ⟨j, hj, hstart, hnone⟩
      by_cases hjk : j = k
      · exact .inl (hjk ▸ hstart)
      · exact .inr ⟨hnone k (by omega) (by omega), j, by omega, hstart,
          fun i h1 h2 => hnone i h1 (by omega)⟩

/-- The first start after `j` that is not later than `k`. -/
theorem first_start_after {j : Nat} (hjk : j < k) (hk : start k) (hj : ¬ start j) :
    ∃ f, j < f ∧ f ≤ k ∧ Edge start f := by
  induction k with
  | zero => omega
  | succ k ih =>
    by_cases hstart : start k
    · have hne : j ≠ k := by
        rintro rfl
        exact hj hstart
      obtain ⟨f, h1, h2, h3⟩ := ih (by omega) hstart
      exact ⟨f, h1, by omega, h3⟩
    · refine ⟨k + 1, hjk, Nat.le_refl _, hk, ?_⟩
      rintro i hi
      obtain rfl : k = i := by omega
      exact hstart

theorem fires_at_edges_iff :
    (∀ k, start k ∧ ¬ Held start reset k ↔ Edge start k) ↔ ResetBetween start reset := by
  constructor
  · intro hfires i j k hij hjk hi hk hj
    -- the first start after `j` fires, so the latch was cleared after `i`
    obtain ⟨f, hjf, hfk, hedge⟩ := first_start_after hjk hk hj
    have hclear := ((hfires f).mpr hedge).2
    rw [held_iff] at hclear
    by_contra hnone
    push Not at hnone
    exact hclear ⟨i, by omega, hi, fun m h1 h2 => hnone m h1 (by omega)⟩
  · intro hreset k
    refine and_congr_right fun hk => ?_
    rw [held_iff]
    constructor
    · rintro hclear j rfl hj
      exact hclear ⟨j, by omega, hj, fun i h1 h2 => by omega⟩
    · rintro hedge ⟨i, hik, hi, hnone⟩
      obtain ⟨j, rfl⟩ : ∃ j, k = j + 1 := ⟨k - 1, by omega⟩
      have hij : i ≠ j := by
        rintro rfl
        exact hedge i rfl hi
      obtain ⟨m, h1, h2, hm⟩ := hreset i j (j + 1) (by omega) (by omega) hi hk (hedge j rfl)
      exact hnone m h1 h2 hm

end MochaHal.Latch
