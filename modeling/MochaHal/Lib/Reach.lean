import Mathlib.Tactic.Common
import Mathlib.Algebra.Order.Field.Rat

/-! Runs of a system whose steps carry a label.  `Reachable ok` collects the
states reached by runs all of whose steps meet `ok`, a condition on the state
before the step and its label; `ok := fun _ _ => True` gives every run.
`Reachable.invariant` is the induction over a run. -/

namespace MochaHal.Reach

variable {σ ι : Type} {init : σ → Prop} {step : σ → ι → σ → Prop} {ok : σ → ι → Prop}

inductive Reachable (init : σ → Prop) (step : σ → ι → σ → Prop) (ok : σ → ι → Prop) : σ → Prop
  | start {s : σ} (h : init s) : Reachable init step ok s
  | next {s s' : σ} {i : ι} (hr : Reachable init step ok s) (hok : ok s i)
      (hs : step s i s') : Reachable init step ok s'

/-- **Invariant rule.** -/
theorem Reachable.invariant {P : σ → Prop} (hinit : ∀ s, init s → P s)
    (hstep : ∀ s i s', P s → ok s i → step s i s' → P s') {s : σ}
    (h : Reachable init step ok s) : P s := by
  induction h with
  | start hs => exact hinit _ hs
  | next _ hok hs ih => exact hstep _ _ _ ih hok hs

/-- A replayed list of enabled steps that all meet `ok` reaches its end. -/
theorem reachable_foldlM {next : σ → ι → Option σ} [∀ s i, Decidable (ok s i)] {s s' : σ}
    (is : List ι) (hr : Reachable init (fun s i s' => next s i = some s') ok s)
    (h : is.foldlM (fun s i => if ok s i then next s i else none) s = some s') :
    Reachable init (fun s i s' => next s i = some s') ok s' := by
  induction is generalizing s with
  | nil =>
    obtain rfl : s = s' := by simpa using h
    exact hr
  | cons i is ih =>
    rw [List.foldlM_cons] at h
    obtain ⟨s₁, h₁, h₂⟩ := Option.bind_eq_some_iff.mp h
    by_cases hok : ok s i
    · rw [if_pos hok] at h₁
      exact ih (.next hr hok h₁) h₂
    · rw [if_neg hok] at h₁
      cases h₁

/-! A list of enabled steps, and then none, as a run that does not stop. -/

variable {next : σ → ι → Option σ}

def replay (next : σ → ι → Option σ) (s : σ) : List ι → Nat → σ
  | [], _ => s
  | _ :: _, 0 => s
  | i :: is, t + 1 => replay next ((next s i).getD s) is t

def enabled (next : σ → ι → Option σ) (s : σ) : List ι → Bool
  | [] => true
  | i :: is => (next s i).isSome && enabled next ((next s i).getD s) is

theorem replay_zero (s : σ) (is : List ι) : replay next s is 0 = s := by
  cases is <;> rfl

theorem replay_next {rest : ι} (hrest : ∀ s, next s rest = some s) {s : σ} {is : List ι}
    (h : enabled next s is = true) (t : Nat) : ∃ i, next (replay next s is t) i = some (replay next s is (t + 1)) := by
  induction is generalizing s t with
  | nil => exact ⟨rest, hrest s⟩
  | cons i is ih =>
    obtain ⟨hi, his⟩ := Bool.and_eq_true_iff.mp h
    cases t with
    | zero =>
      obtain ⟨s', hs'⟩ := Option.isSome_iff_exists.mp hi
      refine ⟨i, ?_⟩
      unfold replay
      rw [replay_zero, hs', Option.getD_some]
    | succ t => exact ih his t

theorem replay_rests {s : σ} {is : List ι} {t : Nat} (h : is.length ≤ t) :
    replay next s is t = replay next s is is.length := by
  induction is generalizing s t with
  | nil => rfl
  | cons i is ih =>
    obtain ⟨t, rfl⟩ := Nat.exists_eq_add_of_le' h
    exact ih (Nat.le_add_left _ _)

end MochaHal.Reach
