import MochaHal.Lib.Prog

/-! Protocols that programs follow.  A monitor watches the calls a program makes:
in a phase it allows some calls and the call and its answer move it to another
phase.  `Obeys` says that a program makes only allowed calls and returns in a good
phase; a program can be checked once and then be run alone (`obeys_run`) or one
call at a time among others (`obeys_step`). -/

namespace MochaHal

structure Monitor (Op : Type) (Ans : Op → Type) (Φ : Type) where
  allowed : Φ → Op → Prop
  after : Φ → (o : Op) → Ans o → Φ

namespace Monitor
open MochaHal.Prog

variable {Op : Type} {Ans : Op → Type} {Φ α β σ : Type} {M : Monitor Op Ans Φ}

def Obeys (M : Monitor Op Ans Φ) (Q : Φ → α → Prop) : Φ → Prog Op Ans α → Prop
  | φ, .ret a => Q φ a
  | φ, .call o k => M.allowed φ o ∧ ∀ a, Obeys M Q (M.after φ o a) (k a)

theorem Obeys.mono {Q Q' : Φ → α → Prop} {φ : Φ} {p : Prog Op Ans α} (h : Obeys M Q φ p)
    (hq : ∀ φ a, Q φ a → Q' φ a) : Obeys M Q' φ p := by
  induction p generalizing φ with
  | ret a => exact hq φ a h
  | call o k ih => exact ⟨h.1, fun a => ih a (h.2 a)⟩

theorem obeys_bind {Q : Φ → β → Prop} {φ : Φ} {p : Prog Op Ans α} {f : α → Prog Op Ans β}
    (h : Obeys M (fun φ' a => Obeys M Q φ' (f a)) φ p) : Obeys M Q φ (p >>= f) := by
  induction p generalizing φ with
  | ret a => exact h
  | call o k ih => exact ⟨h.1, fun a => ih a (h.2 a)⟩

/-- One call of a program that obeys. -/
theorem obeys_step {Q : Φ → α → Prop} {φ : Φ} {o : Op} {k : Ans o → Prog Op Ans α}
    (h : Obeys M Q φ (.call o k)) (a : Ans o) :
    M.allowed φ o ∧ Obeys M Q (M.after φ o a) (k a) := ⟨h.1, h.2 a⟩

/-- The phase after a list of calls. -/
def phase (M : Monitor Op Ans Φ) (φ : Φ) (cs : List ((o : Op) × Ans o)) : Φ :=
  cs.foldl (fun φ c => M.after φ c.1 c.2) φ

theorem obeys_run {Q : Φ → α → Prop} {φ : Φ} {p : Prog Op Ans α} (h : Obeys M Q φ p)
    (env : Env Op Ans) (n : Nat) : Q (M.phase φ (calls env n p)) (run env n p) := by
  induction p generalizing φ n with
  | ret a => exact h
  | call o k ih => exact ih _ (h.2 (env n o)) (n + 1)

/-- Each call of the list is allowed in the phase that the calls before it lead to. -/
def Accepts (M : Monitor Op Ans Φ) : Φ → List ((o : Op) × Ans o) → Prop
  | _, [] => True
  | φ, c :: cs => M.allowed φ c.1 ∧ Accepts M (M.after φ c.1 c.2) cs

theorem obeys_accepts {Q : Φ → α → Prop} {φ : Φ} {p : Prog Op Ans α} (h : Obeys M Q φ p)
    (env : Env Op Ans) (n : Nat) : M.Accepts φ (calls env n p) := by
  induction p generalizing φ n with
  | ret a => trivial
  | call o k ih => exact ⟨h.1, ih _ (h.2 (env n o)) (n + 1)⟩

/-- Calls that the monitor allows in every phase and that do not move it. -/
def Silent (M : Monitor Op Ans Φ) (o : Op) : Prop := ∀ φ, M.allowed φ o ∧ ∀ a, M.after φ o a = φ

theorem obeys_silent {Q : Φ → α → Prop} {φ : Φ} {p : Prog Op Ans α}
    (hp : Asks M.Silent (fun _ _ => True) p) (hq : Post (fun _ _ => True) (Q φ) p) :
    Obeys M Q φ p := by
  induction p with
  | ret a => exact hq
  | call o k ih =>
    refine ⟨(hp.1 φ).1, fun a => ?_⟩
    rw [(hp.1 φ).2 a]
    exact ih a (hp.2 a trivial) (hq a trivial)

theorem silent_trace {φ : Φ} {cs : List ((o : Op) × Ans o)} (h : ∀ c ∈ cs, M.Silent c.1) :
    M.Accepts φ cs ∧ M.phase φ cs = φ := by
  induction cs with
  | nil => exact ⟨trivial, rfl⟩
  | cons c cs ih =>
    have hc := h c (by simp) φ
    have hstay : M.phase φ (c :: cs) = M.phase φ cs := by
      show M.phase (M.after φ c.1 c.2) cs = _
      rw [hc.2 c.2]
    obtain ⟨haccepts, hphase⟩ := ih fun c hc => h c (by simp [hc])
    refine ⟨⟨hc.1, ?_⟩, hstay.trans hphase⟩
    rw [hc.2 c.2]
    exact haccepts

/-! ## Code with a state of its own -/

section

variable {Q : Φ → β × σ → Prop} {φ : Φ} {s : σ}

theorem obeys_stateBind {p : StateT σ (Prog Op Ans) α} {f : α → StateT σ (Prog Op Ans) β}
    (h : Obeys M (fun φ' r => Obeys M Q φ' (f r.1 r.2)) φ (p s)) : Obeys M Q φ ((p >>= f) s) :=
  obeys_bind h

/-- Code that makes only silent calls can be skipped. -/
theorem obeys_skip {p : StateT σ (Prog Op Ans) α} {f : α → StateT σ (Prog Op Ans) β}
    (hp : Only M.Silent p) (h : ∀ a s, Obeys M Q φ (f a s)) : Obeys M Q φ ((p >>= f) s) :=
  obeys_bind (obeys_silent (hp s) (post_true _ fun r => h r.1 r.2))

/-- The same, with what the code keeps of its state. -/
theorem obeys_keep {γ : Type} {g : σ → γ} {p : StateT σ (Prog Op Ans) α}
    {f : α → StateT σ (Prog Op Ans) β} (hp : Only M.Silent p) (hg : Keeps g p)
    (h : ∀ a s', g s' = g s → Obeys M Q φ (f a s')) : Obeys M Q φ ((p >>= f) s) :=
  obeys_bind (obeys_silent (hp s) ((hg s).mono fun r hr => h r.1 r.2 hr))

theorem obeys_get {f : σ → StateT σ (Prog Op Ans) β} (h : Obeys M Q φ (f s s)) :
    Obeys M Q φ ((get >>= f) s) := h

theorem obeys_modify {g : σ → σ} {f : PUnit → StateT σ (Prog Op Ans) β}
    (h : Obeys M Q φ (f ⟨⟩ (g s))) : Obeys M Q φ ((modify g >>= f) s) := h

theorem obeys_ask {o : Op} {f : Ans o → StateT σ (Prog Op Ans) β} (hallow : M.allowed φ o)
    (h : ∀ a, Obeys M Q (M.after φ o a) (f a s)) : Obeys M Q φ ((ask o >>= f) s) :=
  ⟨hallow, h⟩

theorem obeys_ite {c : Prop} [Decidable c] {p q : StateT σ (Prog Op Ans) β}
    (hp : c → Obeys M Q φ (p s)) (hq : ¬ c → Obeys M Q φ (q s)) :
    Obeys M Q φ ((if c then p else q) s) := by
  by_cases hc : c
  · rw [if_pos hc]
    exact hp hc
  · rw [if_neg hc]
    exact hq hc

end

end Monitor

end MochaHal
