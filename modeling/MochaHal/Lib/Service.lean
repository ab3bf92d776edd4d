import MochaHal.Lib.Prog

/-! A component next to a program.  A service answers some of the program's calls
from a state of its own, which they change; the other calls are answered from
outside.  `Ensures` says what holds of the result and of the service when the
program returns, and `ensures_exec` that every run has it. -/

namespace MochaHal

/-- The answer to a call and the state after it; `none` for calls that go elsewhere. -/
abbrev Service (Op : Type) (Ans : Op → Type) (τ : Type) := τ → (o : Op) → Option (Ans o × τ)

namespace Service
open MochaHal.Prog

variable {Op : Type} {Ans : Op → Type} {α β σ τ : Type} {S : Service Op Ans τ}

/-- The run of a program on the service in state `t`. -/
def exec (S : Service Op Ans τ) (env : Env Op Ans) : Nat → τ → Prog Op Ans α → α × τ
  | _, t, .ret a => (a, t)
  | n, t, .call o k =>
    match S t o with
    | some r => exec S env n r.2 (k r.1)
    | none => exec S env (n + 1) t (k (env n o))

def Ensures (S : Service Op Ans τ) (Q : α → τ → Prop) : τ → Prog Op Ans α → Prop
  | t, .ret a => Q a t
  | t, .call o k =>
    match S t o with
    | some r => Ensures S Q r.2 (k r.1)
    | none => ∀ a, Ensures S Q t (k a)

theorem ensures_exec {Q : α → τ → Prop} {p : Prog Op Ans α} {t : τ} (h : Ensures S Q t p)
    (env : Env Op Ans) (n : Nat) : Q (exec S env n t p).1 (exec S env n t p).2 := by
  induction p generalizing t n with
  | ret a => exact h
  | call o k ih =>
    unfold Ensures at h
    unfold exec
    cases hS : S t o with
    | some r =>
      rw [hS] at h
      exact ih r.1 h n
    | none =>
      rw [hS] at h
      exact ih (env n o) (h (env n o)) (n + 1)

theorem Ensures.mono {Q Q' : α → τ → Prop} {p : Prog Op Ans α} {t : τ} (h : Ensures S Q t p)
    (hq : ∀ a t, Q a t → Q' a t) : Ensures S Q' t p := by
  induction p generalizing t with
  | ret a => exact hq a t h
  | call o k ih =>
    unfold Ensures at h ⊢
    cases hS : S t o with
    | some r =>
      rw [hS] at h
      exact ih r.1 h
    | none =>
      rw [hS] at h
      exact fun a => ih a (h a)

theorem ensures_bind {Q : β → τ → Prop} {p : Prog Op Ans α} {f : α → Prog Op Ans β} {t : τ}
    (h : Ensures S (fun a t => Ensures S Q t (f a)) t p) : Ensures S Q t (p >>= f) := by
  induction p generalizing t with
  | ret a => exact h
  | call o k ih =>
    show Ensures S Q t (.call o fun a => k a >>= f)
    unfold Ensures at h ⊢
    cases hS : S t o with
    | some r =>
      rw [hS] at h
      exact ih r.1 h
    | none =>
      rw [hS] at h
      exact fun a => ih a (h a)

theorem ensures_stateBind {Q : β × σ → τ → Prop} {p : StateT σ (Prog Op Ans) α}
    {f : α → StateT σ (Prog Op Ans) β} {s : σ} {t : τ}
    (h : Ensures S (fun r t => Ensures S Q t (f r.1 r.2)) t (p s)) : Ensures S Q t ((p >>= f) s) :=
  ensures_bind h

/-- Calls that the service does not answer in any state. -/
def Foreign (S : Service Op Ans τ) (o : Op) : Prop := ∀ t, S t o = none

/-- A program that does not talk to the service leaves it alone. -/
theorem ensures_foreign {Q : α → τ → Prop} {p : Prog Op Ans α} {t : τ}
    (hp : Asks S.Foreign (fun _ _ => True) p) (hq : Post (fun _ _ => True) (fun a => Q a t) p) :
    Ensures S Q t p := by
  induction p with
  | ret a => exact hq
  | call o k ih =>
    unfold Ensures
    rw [hp.1 t]
    exact fun a => ih a (hp.2 a trivial) (hq a trivial)

end Service

end MochaHal
