import Mathlib.Tactic.Common
import Mathlib.Algebra.Order.Field.Rat

/-! Programs that make calls to an outside world.  A program is a tree: it
returns, or makes a call and goes on with the answer.  `run` answers the calls
from an environment, `Post ok Q` says that every run whose answers are `ok`
returns a value in `Q`, and `post_run` connects the two.  Code with a state of
its own is `StateT σ (Prog Op Ans)`. -/

namespace MochaHal

/-- Programs with calls `Op`, a call `o` being answered in `Ans o`. -/
inductive Prog (Op : Type) (Ans : Op → Type) (α : Type) : Type
  | ret (a : α)
  | call (o : Op) (k : Ans o → Prog Op Ans α)

namespace Prog

variable {Op : Type} {Ans : Op → Type} {α β σ : Type}

def bind : Prog Op Ans α → (α → Prog Op Ans β) → Prog Op Ans β
  | ret a, f => f a
  | call o k, f => call o (fun a => (k a).bind f)

instance : Monad (Prog Op Ans) where
  pure := ret
  bind := bind

/-- The program that makes one call and returns its answer. -/
def perform (o : Op) : Prog Op Ans (Ans o) := call o ret

/-- The answers an outside world gives: `env n o` to the call `o`, made as the `n`-th. -/
abbrev Env (Op : Type) (Ans : Op → Type) := Nat → (o : Op) → Ans o

/-- The value returned against `env`, `n` calls having been made before. -/
def run (env : Env Op Ans) : Nat → Prog Op Ans α → α
  | _, ret a => a
  | n, call o k => run env (n + 1) (k (env n o))

/-- The calls made against `env`, with their answers, in order. -/
def calls (env : Env Op Ans) : Nat → Prog Op Ans α → List ((o : Op) × Ans o)
  | _, ret _ => []
  | n, call o k => ⟨o, env n o⟩ :: calls env (n + 1) (k (env n o))

/-- How many calls have been made once the program returns. -/
def after (env : Env Op Ans) : Nat → Prog Op Ans α → Nat
  | n, ret _ => n
  | n, call o k => after env (n + 1) (k (env n o))

/-- The value returned and the number of calls made by then. -/
def outcome (env : Env Op Ans) (n : Nat) (p : Prog Op Ans α) : α × Nat := (run env n p, after env n p)

theorem run_bind (env : Env Op Ans) (n : Nat) (p : Prog Op Ans α) (f : α → Prog Op Ans β) :
    run env n (p >>= f) = run env (after env n p) (f (run env n p)) := by
  induction p generalizing n with
  | ret a => rfl
  | call o k ih => exact ih (env n o) (n + 1)

theorem calls_bind (env : Env Op Ans) (n : Nat) (p : Prog Op Ans α) (f : α → Prog Op Ans β) :
    calls env n (p >>= f) = calls env n p ++ calls env (after env n p) (f (run env n p)) := by
  induction p generalizing n with
  | ret a => rfl
  | call o k ih => exact congrArg (⟨o, env n o⟩ :: ·) (ih (env n o) (n + 1))

theorem run_stateBind (env : Env Op Ans) (n : Nat) (p : StateT σ (Prog Op Ans) α)
    (f : α → StateT σ (Prog Op Ans) β) (s : σ) :
    run env n ((p >>= f) s) =
      run env (after env n (p s)) (f (run env n (p s)).1 (run env n (p s)).2) :=
  run_bind env n (p s) fun r => f r.1 r.2

theorem after_bind (env : Env Op Ans) (n : Nat) (p : Prog Op Ans α) (f : α → Prog Op Ans β) :
    after env n (p >>= f) = after env (after env n p) (f (run env n p)) := by
  induction p generalizing n with
  | ret a => rfl
  | call o k ih => exact ih (env n o) (n + 1)

/-- Code with a state, begun at a point of a run (the calls made so far and the state):
its value and the point at which it ends. -/
def runFrom (env : Env Op Ans) (c : Nat × σ) (p : StateT σ (Prog Op Ans) α) : α × (Nat × σ) :=
  ((run env c.1 (p c.2)).1, (after env c.1 (p c.2), (run env c.1 (p c.2)).2))

theorem runFrom_bind (env : Env Op Ans) (c : Nat × σ) (p : StateT σ (Prog Op Ans) α)
    (f : α → StateT σ (Prog Op Ans) β) :
    runFrom env c (p >>= f) = runFrom env (runFrom env c p).2 (f (runFrom env c p).1) := by
  have hafter : after env c.1 ((p >>= f) c.2) =
      after env (after env c.1 (p c.2)) (f (run env c.1 (p c.2)).1 (run env c.1 (p c.2)).2) :=
    after_bind env c.1 (p c.2) fun r => f r.1 r.2
  unfold runFrom
  rw [run_stateBind, hafter]

theorem calls_stateBind (env : Env Op Ans) (c : Nat × σ) (p : StateT σ (Prog Op Ans) α)
    (f : α → StateT σ (Prog Op Ans) β) :
    calls env c.1 ((p >>= f) c.2) = calls env c.1 (p c.2) ++
      calls env (runFrom env c p).2.1 (f (runFrom env c p).1 (runFrom env c p).2.2) :=
  calls_bind env c.1 (p c.2) fun r => f r.1 r.2

@[simp] theorem run_get (env : Env Op Ans) (n : Nat) (s : σ) :
    run env n ((get : StateT σ (Prog Op Ans) σ) s) = (s, s) := rfl

/-! ## Postconditions -/

variable (ok : (o : Op) → Ans o → Prop)

/-- Whatever `ok` answers it gets, the program returns a value in `Q`. -/
def Post (Q : α → Prop) : Prog Op Ans α → Prop
  | ret a => Q a
  | call o k => ∀ a, ok o a → Post Q (k a)

variable {ok} {Q : α → Prop} {R : β → Prop}

@[simp] theorem post_ret {a : α} : Post ok Q (ret a) ↔ Q a := Iff.rfl

theorem post_bind {p : Prog Op Ans α} {f : α → Prog Op Ans β} :
    Post ok R (p >>= f) ↔ Post ok (fun a => Post ok R (f a)) p := by
  induction p with
  | ret a => exact Iff.rfl
  | call o k ih => exact forall_congr' fun a => imp_congr_right fun _ => ih a

theorem Post.mono {Q Q' : α → Prop} {p : Prog Op Ans α} (h : Post ok Q p)
    (hq : ∀ a, Q a → Q' a) : Post ok Q' p := by
  induction p with
  | ret a => exact hq a h
  | call o k ih => exact fun a ha => ih a (h a ha)

/-- **Soundness of postconditions.** -/
theorem post_run {env : Env Op Ans} {p : Prog Op Ans α} (h : Post ok Q p)
    (he : ∀ n o, ok o (env n o)) (n : Nat) : Q (run env n p) := by
  induction p generalizing n with
  | ret a => exact h
  | call o k ih => exact ih _ (h _ (he n o)) (n + 1)

theorem run_of_post {p : Prog Op Ans α} (h : Post (fun _ _ => True) Q p) (env : Env Op Ans)
    (n : Nat) : Q (run env n p) :=
  post_run h (fun _ _ => trivial) n

/-! ## Programs with a state of their own -/

/-- Making a call from code that carries a state. -/
def ask (o : Op) : StateT σ (Prog Op Ans) (Ans o) := fun s => call o fun a => ret (a, s)

/-- An `if` without `else`. -/
def onlyIf (c : Prop) [Decidable c] (m : StateT σ (Prog Op Ans) Unit) : StateT σ (Prog Op Ans) Unit :=
  if c then m else pure ()

section

variable {env : Env Op Ans} {n : Nat} {s : σ}

theorem run_askBind {o : Op} {f : Ans o → StateT σ (Prog Op Ans) β} :
    run env n ((ask o >>= f) s) = run env (n + 1) (f (env n o) s) := rfl

theorem calls_askBind {o : Op} {f : Ans o → StateT σ (Prog Op Ans) β} :
    calls env n ((ask o >>= f) s) = ⟨o, env n o⟩ :: calls env (n + 1) (f (env n o) s) := rfl

theorem outcome_askBind {o : Op} {f : Ans o → StateT σ (Prog Op Ans) β} :
    outcome env n ((ask o >>= f) s) = outcome env (n + 1) (f (env n o) s) := rfl

theorem run_getBind {f : σ → StateT σ (Prog Op Ans) β} :
    run env n ((get >>= f) s) = run env n (f s s) := rfl

theorem run_modifyBind {g : σ → σ} {f : PUnit → StateT σ (Prog Op Ans) β} :
    run env n ((modify g >>= f) s) = run env n (f ⟨⟩ (g s)) := rfl

theorem outcome_modifyBind {g : σ → σ} {f : PUnit → StateT σ (Prog Op Ans) β} :
    outcome env n ((modify g >>= f) s) = outcome env n (f ⟨⟩ (g s)) := rfl

end

section

variable {s : σ} {T : α × σ → Prop} {U : β × σ → Prop}

@[simp] theorem post_ask {o : Op} {T : Ans o × σ → Prop} :
    Post ok T (ask o s) ↔ ∀ a, ok o a → T (a, s) := Iff.rfl

@[simp] theorem post_statePure {a : α} :
    Post ok T ((pure a : StateT σ (Prog Op Ans) α) s) ↔ T (a, s) := Iff.rfl

@[simp] theorem post_get {T : σ × σ → Prop} :
    Post ok T ((get : StateT σ (Prog Op Ans) σ) s) ↔ T (s, s) := Iff.rfl

@[simp] theorem post_modify {f : σ → σ} {T : PUnit × σ → Prop} :
    Post ok T ((modify f : StateT σ (Prog Op Ans) PUnit) s) ↔ T (⟨⟩, f s) := Iff.rfl

@[simp] theorem post_stateBind {p : StateT σ (Prog Op Ans) α} {f : α → StateT σ (Prog Op Ans) β} :
    Post ok U ((p >>= f) s) ↔ Post ok (fun r => Post ok U (f r.1 r.2)) (p s) := by
  show Post ok U (p s >>= fun r => f r.1 r.2) ↔ _
  exact post_bind

theorem post_stateIte {c : Prop} [Decidable c] {p q : StateT σ (Prog Op Ans) α}
    (hp : c → Post ok T (p s)) (hq : ¬ c → Post ok T (q s)) :
    Post ok T ((if c then p else q) s) := by
  by_cases hc : c
  · rw [if_pos hc]
    exact hp hc
  · rw [if_neg hc]
    exact hq hc

/-- Fewer answers, fewer runs. -/
theorem Post.weaken {ok ok' : (o : Op) → Ans o → Prop} {p : Prog Op Ans α} (h : Post ok Q p)
    (hok : ∀ o a, ok' o a → ok o a) : Post ok' Q p := by
  induction p with
  | ret a => exact h
  | call o k ih => exact fun a ha => ih a (h a (hok o a ha))

end

/-! ## Frame conditions -/

section

variable {γ : Type}

/-- The code leaves `f` of the state as it is, whatever it is answered. -/
def Keeps (f : σ → γ) (p : StateT σ (Prog Op Ans) α) : Prop :=
  ∀ s, Post (fun _ _ => True) (fun r => f r.2 = f s) (p s)

variable {f : σ → γ}

theorem keeps_pure (a : α) : Keeps f (pure a : StateT σ (Prog Op Ans) α) := fun _ => rfl

theorem keeps_get : Keeps f (get : StateT σ (Prog Op Ans) σ) := fun _ => rfl

theorem keeps_ask (o : Op) : Keeps f (ask o : StateT σ (Prog Op Ans) (Ans o)) := fun _ _ _ => rfl

theorem keeps_modify {g : σ → σ} (h : ∀ s, f (g s) = f s) :
    Keeps f (modify g : StateT σ (Prog Op Ans) PUnit) := fun s => h s

theorem Keeps.bind {p : StateT σ (Prog Op Ans) α} {k : α → StateT σ (Prog Op Ans) β}
    (hp : Keeps f p) (hk : ∀ a, Keeps f (k a)) : Keeps f (p >>= k) := by
  intro s
  rw [post_stateBind]
  exact (hp s).mono fun r hr => (hk r.1 r.2).mono fun r' hr' => hr'.trans hr

theorem Keeps.ite {c : Prop} [Decidable c] {p q : StateT σ (Prog Op Ans) α}
    (hp : Keeps f p) (hq : Keeps f q) : Keeps f (if c then p else q) := by
  by_cases hc : c
  · rw [if_pos hc]
    exact hp
  · rw [if_neg hc]
    exact hq

theorem Keeps.map {δ : Type} {p : StateT σ (Prog Op Ans) α} (hp : Keeps f p) (g : γ → δ) :
    Keeps (fun s => g (f s)) p :=
  fun s => (hp s).mono fun _ hr => congrArg g hr

theorem onlyIf_keeps {c : Prop} [Decidable c] {m : StateT σ (Prog Op Ans) Unit}
    (hm : Keeps f m) : Keeps f (onlyIf c m) := .ite hm (keeps_pure _)

/-- What is kept may be assumed while proving another postcondition. -/
theorem Keeps.post {p : StateT σ (Prog Op Ans) α} (hp : Keeps f p) {s : σ} {ok}
    {T : α × σ → Prop} (hT : ∀ r, f r.2 = f s → T r) : Post ok T (p s) :=
  ((hp s).mono hT).weaken fun _ _ _ => trivial

end

/-! ## Calls a program may make -/

/-- Every call the program makes is in `pre`, as long as the answers are `ok`. -/
def Asks (pre : Op → Prop) (ok : (o : Op) → Ans o → Prop) : Prog Op Ans α → Prop
  | ret _ => True
  | call o k => pre o ∧ ∀ a, ok o a → Asks pre ok (k a)

section

variable {pre : Op → Prop}

theorem asks_bind {p : Prog Op Ans α} {f : α → Prog Op Ans β} (hp : Asks pre ok p)
    (hf : Post ok (fun a => Asks pre ok (f a)) p) : Asks pre ok (p >>= f) := by
  induction p with
  | ret a => exact hf
  | call o k ih => exact ⟨hp.1, fun a ha => ih a (hp.2 a ha) (hf a ha)⟩

theorem asks_stateBind {s : σ} {p : StateT σ (Prog Op Ans) α} {f : α → StateT σ (Prog Op Ans) β}
    (hp : Asks pre ok (p s)) (hf : Post ok (fun r => Asks pre ok (f r.1 r.2)) (p s)) :
    Asks pre ok ((p >>= f) s) :=
  asks_bind hp hf

theorem asks_stateIte {s : σ} {c : Prop} [Decidable c] {p q : StateT σ (Prog Op Ans) α}
    (hp : c → Asks pre ok (p s)) (hq : ¬ c → Asks pre ok (q s)) :
    Asks pre ok ((if c then p else q) s) := by
  by_cases hc : c
  · rw [if_pos hc]
    exact hp hc
  · rw [if_neg hc]
    exact hq hc

/-- **Soundness of call conditions.** -/
theorem asks_calls {env : Env Op Ans} {p : Prog Op Ans α} (h : Asks pre ok p)
    (he : ∀ n o, ok o (env n o)) (n : Nat) : ∀ c ∈ calls env n p, pre c.1 := by
  induction p generalizing n with
  | ret a => exact fun c hc => absurd hc (by simp [calls])
  | call o k ih =>
    intro c hc
    rcases List.mem_cons.mp hc with rfl | hc
    · exact h.1
    · exact ih _ (h.2 _ (he n o)) (n + 1) c hc

/-- Code all of whose calls are in `pre`, from every state. -/
def Only (pre : Op → Prop) (p : StateT σ (Prog Op Ans) α) : Prop :=
  ∀ s, Asks pre (fun _ _ => True) (p s)

theorem only_pure (a : α) : Only pre (pure a : StateT σ (Prog Op Ans) α) := fun _ => trivial

theorem only_get : Only pre (get : StateT σ (Prog Op Ans) σ) := fun _ => trivial

theorem only_modify (g : σ → σ) : Only pre (modify g : StateT σ (Prog Op Ans) PUnit) :=
  fun _ => trivial

theorem only_ask {o : Op} (h : pre o) : Only pre (ask o : StateT σ (Prog Op Ans) (Ans o)) :=
  fun _ => ⟨h, fun _ _ => trivial⟩

theorem post_true (p : Prog Op Ans α) {Q : α → Prop} (hQ : ∀ a, Q a) : Post ok Q p := by
  induction p with
  | ret a => exact hQ a
  | call o k ih => exact fun a _ => ih a

theorem Only.mono {pre' : Op → Prop} {p : StateT σ (Prog Op Ans) α} (hp : Only pre p)
    (h : ∀ o, pre o → pre' o) : Only pre' p := by
  intro s
  have := hp s
  generalize p s = q at this ⊢
  induction q with
  | ret a => trivial
  | call o k ih => exact ⟨h o this.1, fun a ha => ih a (this.2 a ha)⟩

theorem Only.bind {p : StateT σ (Prog Op Ans) α} {k : α → StateT σ (Prog Op Ans) β}
    (hp : Only pre p) (hk : ∀ a, Only pre (k a)) : Only pre (p >>= k) :=
  fun s => asks_stateBind (hp s) (post_true _ fun r => hk r.1 r.2)

theorem Only.ite {c : Prop} [Decidable c] {p q : StateT σ (Prog Op Ans) α}
    (hp : Only pre p) (hq : Only pre q) : Only pre (if c then p else q) := by
  by_cases hc : c
  · rw [if_pos hc]
    exact hp
  · rw [if_neg hc]
    exact hq

theorem onlyIf_only {c : Prop} [Decidable c] {m : StateT σ (Prog Op Ans) Unit}
    (hm : Only pre m) : Only pre (onlyIf c m) := .ite hm (only_pure _)

end

/-- Code that makes only calls in `pre` and leaves `f` of the state as it is. -/
structure Confined {γ : Type} (pre : Op → Prop) (f : σ → γ) (p : StateT σ (Prog Op Ans) α) : Prop where
  only : Only pre p
  keeps : Keeps f p

section

variable {γ : Type} {pre : Op → Prop} {f : σ → γ}

theorem confined_pure (a : α) : Confined pre f (pure a : StateT σ (Prog Op Ans) α) := ⟨only_pure a, keeps_pure a⟩

theorem confined_get : Confined pre f (get : StateT σ (Prog Op Ans) σ) := ⟨only_get, keeps_get⟩

theorem confined_ask {o : Op} (h : pre o) : Confined pre f (ask o : StateT σ (Prog Op Ans) (Ans o)) :=
  ⟨only_ask h, keeps_ask o⟩

theorem confined_modify {g : σ → σ} (h : ∀ s, f (g s) = f s) :
    Confined pre f (modify g : StateT σ (Prog Op Ans) PUnit) := ⟨only_modify g, keeps_modify h⟩

theorem Confined.bind {p : StateT σ (Prog Op Ans) α} {k : α → StateT σ (Prog Op Ans) β}
    (hp : Confined pre f p) (hk : ∀ a, Confined pre f (k a)) : Confined pre f (p >>= k) :=
  ⟨hp.only.bind fun a => (hk a).only, hp.keeps.bind fun a => (hk a).keeps⟩

theorem Confined.ite {c : Prop} [Decidable c] {p q : StateT σ (Prog Op Ans) α}
    (hp : Confined pre f p) (hq : Confined pre f q) : Confined pre f (if c then p else q) :=
  ⟨hp.only.ite hq.only, hp.keeps.ite hq.keeps⟩

theorem Confined.mono {pre' : Op → Prop} {p : StateT σ (Prog Op Ans) α} (hp : Confined pre f p)
    (h : ∀ o, pre o → pre' o) : Confined pre' f p := ⟨hp.only.mono h, hp.keeps⟩

theorem Confined.map {δ : Type} {p : StateT σ (Prog Op Ans) α} (hp : Confined pre f p) (g : γ → δ) :
    Confined pre (fun s => g (f s)) p := ⟨hp.only, hp.keeps.map g⟩

theorem onlyIf_confined {c : Prop} [Decidable c] {m : StateT σ (Prog Op Ans) Unit}
    (hm : Confined pre f m) : Confined pre f (onlyIf c m) := .ite hm (confined_pure _)

end

/-! ## Programs of a smaller world inside a larger one -/

section

variable {Op' : Type} {Ans' : Op' → Type}

/-- The same program with its calls renamed by `e` and their answers read by `c`. -/
def embed (e : Op → Op') (c : (o : Op) → Ans' (e o) → Ans o) : Prog Op Ans α → Prog Op' Ans' α
  | ret a => ret a
  | call o k => call (e o) fun a => embed e c (k (c o a))

theorem post_embed {e : Op → Op'} {c : (o : Op) → Ans' (e o) → Ans o}
    {ok : (o : Op) → Ans o → Prop} {ok' : (o : Op') → Ans' o → Prop} {p : Prog Op Ans α}
    (hok : ∀ o a, ok' (e o) a → ok o (c o a)) (h : Post ok Q p) : Post ok' Q (embed e c p) := by
  induction p with
  | ret a => exact h
  | call o k ih => exact fun a ha => ih (c o a) (h (c o a) (hok o a ha))

theorem asks_embed {pre : Op' → Prop} {e : Op → Op'} {c : (o : Op) → Ans' (e o) → Ans o}
    {ok' : (o : Op') → Ans' o → Prop} (hpre : ∀ o, pre (e o)) (p : Prog Op Ans α) :
    Asks pre ok' (embed e c p) := by
  induction p with
  | ret a => trivial
  | call o k ih => exact ⟨hpre o, fun a _ => ih (c o a)⟩

end

/-! ## Programs whose calls are answered by code -/

section

variable {Op' : Type} {Ans' : Op' → Type} {ok' : (o : Op') → Ans' o → Prop}

/-- The program with each of its calls replaced by the code of `handle`. -/
def interp (handle : (o : Op) → StateT σ (Prog Op' Ans') (Ans o)) :
    Prog Op Ans α → StateT σ (Prog Op' Ans') α
  | ret a => pure a
  | call o k => handle o >>= fun a => interp handle (k a)

/-- What every answer keeps, the whole program keeps. -/
theorem post_interp {handle : (o : Op) → StateT σ (Prog Op' Ans') (Ans o)} {I : σ → Prop}
    (hstep : ∀ o s, I s → Post ok' (fun r => I r.2) (handle o s)) (p : Prog Op Ans α) {s : σ}
    (hs : I s) : Post ok' (fun r => I r.2) (interp handle p s) := by
  induction p generalizing s with
  | ret a => exact hs
  | call o k ih =>
    rw [interp, post_stateBind]
    exact (hstep o s hs).mono fun r hr => ih r.1 hr

end

end Prog

end MochaHal
