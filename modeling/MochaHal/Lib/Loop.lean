import Mathlib.Tactic.Common
import Mathlib.Algebra.Order.Field.Rat

/-! Counted loops `for (; cond x; x += stride) body` over an explicit state.  The
counter is an integer, as in C, and a fuel argument keeps the loop computable.
`forLoop_rule` is the invariant rule, `forLoop_exit` says when the fuel was
enough, and `forLoop_while` is the two together: the invariant and the negated
guard hold where the loop stops. -/

namespace MochaHal.Loop

variable {σ : Type}

/-- The loop returns the counter it stopped at, for the loop after it, and the state. -/
def forLoop (cond : Int → Bool) (stride : Int) (body : Int → σ → σ) : Nat → Int → σ → Int × σ
  | 0, x, s => (x, s)
  | fuel + 1, x, s =>
      if cond x then forLoop cond stride body fuel (x + stride) (body x s) else (x, s)

/-- **Invariant rule.** -/
theorem forLoop_rule {cond : Int → Bool} {stride : Int} {body : Int → σ → σ}
    (P : Int → σ → Prop)
    (step : ∀ x s, cond x = true → P x s → P (x + stride) (body x s))
    (fuel : Nat) (x : Int) (s : σ) (init : P x s) :
    P (forLoop cond stride body fuel x s).1 (forLoop cond stride body fuel x s).2 := by
  induction fuel generalizing x s with
  | zero => exact init
  | succ fuel ih =>
    by_cases hc : cond x = true
    · simp only [forLoop, hc, ↓reduceIte]
      exact ih _ _ (step x s hc init)
    · simpa only [forLoop, hc, Bool.false_eq_true, ↓reduceIte] using init

/-- A loop over values that stand for others is the loop over those. -/
theorem forLoop_map {τ : Type} {cond : Int → Bool} {stride : Int} {body : Int → σ → σ}
    {body' : Int → τ → τ} (g : τ → σ) (h : ∀ x t, body x (g t) = g (body' x t)) (fuel : Nat)
    (x : Int) (t : τ) :
    forLoop cond stride body fuel x (g t) =
      ((forLoop cond stride body' fuel x t).1, g (forLoop cond stride body' fuel x t).2) := by
  induction fuel generalizing x t with
  | zero => rfl
  | succ fuel ih =>
    by_cases hc : cond x = true
    · simp only [forLoop, hc, ↓reduceIte, h, ih]
    · simp only [forLoop, hc, Bool.false_eq_true, ↓reduceIte]

/-- A loop whose guard bounds the counter stops because the guard failed, once
the fuel covers the distance to that bound. -/
theorem forLoop_exit {cond : Int → Bool} {stride bound : Int} (body : Int → σ → σ)
    (hs : 0 < stride) (hb : ∀ x, cond x = true → x < bound)
    (fuel : Nat) (x : Int) (s : σ) (hf : bound ≤ fuel + x) :
    cond (forLoop cond stride body fuel x s).1 = false := by
  induction fuel generalizing x s with
  | zero =>
    by_contra hc
    have := hb x (by simpa [forLoop] using hc)
    omega
  | succ fuel ih =>
    by_cases hc : cond x = true
    · simp only [forLoop, hc, ↓reduceIte]
      exact ih _ _ (by omega)
    · simp only [forLoop, hc, Bool.false_eq_true, ↓reduceIte]

/-- **While rule.** -/
theorem forLoop_while (G : Int → Prop) [DecidablePred G] (stride bound : Int)
    (body : Int → σ → σ) (P : Int → σ → Prop) (hs : 0 < stride) (hb : ∀ x, G x → x < bound)
    (step : ∀ x s, G x → P x s → P (x + stride) (body x s))
    (fuel : Nat) (x : Int) (s : σ) (hf : bound ≤ fuel + x) (init : P x s) :
    P (forLoop (fun x => decide (G x)) stride body fuel x s).1
      (forLoop (fun x => decide (G x)) stride body fuel x s).2 ∧
    ¬ G (forLoop (fun x => decide (G x)) stride body fuel x s).1 := by
  constructor
  · exact forLoop_rule P (fun x s hc => step x s (of_decide_eq_true hc)) fuel x s init
  · have := forLoop_exit body hs (fun x hx => hb x (of_decide_eq_true hx)) fuel x s hf
    exact of_decide_eq_false this

end MochaHal.Loop
