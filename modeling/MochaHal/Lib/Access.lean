import MochaHal.Lib.Loop
import MochaHal.Lib.Neon
import MochaHal.Lib.Prog

/-! Code that loads and stores words in named buffers.  `exec` runs it on a memory and
`accesses` lists the places it touches on the way; both are read off the same program.
`Within inside p` says that whatever it loads, `p` touches only places in `inside`, and
`accesses_within` is its soundness.  A place is a buffer and an integer index, so that one in
front of a buffer can be named too. -/

namespace MochaHal.Access
open MochaHal.Loop MochaHal.Neon MochaHal.Prog

variable {B : Type} {w : Nat} {α β : Type}

inductive Op (B : Type) (w : Nat)
  | load (b : B) (i : Int)
  | store (b : B) (i : Int) (v : BitVec w)

@[reducible] def Op.Ans : Op B w → Type
  | .load _ _ => BitVec w
  | .store _ _ _ => Unit

def Op.place : Op B w → B × Int
  | .load b i => (b, i)
  | .store b i _ => (b, i)

abbrev Code (B : Type) (w : Nat) := Prog (Op B w) Op.Ans

abbrev Memory (B : Type) (w : Nat) := B → Int → BitVec w

def load (b : B) (i : Int) : Code B w (BitVec w) := perform (Op.load b i)

def store (b : B) (i : Int) (v : BitVec w) : Code B w Unit := perform (Op.store b i v)

section

variable [DecidableEq B]

/-- The memory with one buffer's contents replaced. -/
def replace (m : Memory B w) (b : B) (f : Int → BitVec w) : Memory B w := fun c =>
  if c = b then f else m c

def put (f : Int → BitVec w) (i : Int) (v : BitVec w) : Int → BitVec w := fun j =>
  if j = i then v else f j

def respond (m : Memory B w) : (o : Op B w) → o.Ans × Memory B w
  | .load b i => (m b i, m)
  | .store b i v => ((), replace m b (put (m b) i v))

def exec : Code B w α → Memory B w → α × Memory B w
  | .ret a, m => (a, m)
  | .call o k, m => exec (k (respond m o).1) (respond m o).2

/-- The places touched, in order. -/
def accesses : Code B w α → Memory B w → List (B × Int)
  | .ret _, _ => []
  | .call o k, m => o.place :: accesses (k (respond m o).1) (respond m o).2

theorem exec_bind (p : Code B w α) (f : α → Code B w β) (m : Memory B w) :
    exec (p >>= f) m = exec (f (exec p m).1) (exec p m).2 := by
  induction p generalizing m with
  | ret a => rfl
  | call o k ih => exact ih _ _

theorem accesses_bind (p : Code B w α) (f : α → Code B w β) (m : Memory B w) :
    accesses (p >>= f) m = accesses p m ++ accesses (f (exec p m).1) (exec p m).2 := by
  induction p generalizing m with
  | ret a => rfl
  | call o k ih => exact congrArg (o.place :: ·) (ih _ _)

@[simp] theorem exec_pure (a : α) (m : Memory B w) : exec (pure a : Code B w α) m = (a, m) := rfl

@[simp] theorem exec_load (b : B) (i : Int) (m : Memory B w) : exec (load b i) m = (m b i, m) := rfl

@[simp] theorem exec_store (b : B) (i : Int) (v : BitVec w) (m : Memory B w) :
    exec (store b i v) m = ((), replace m b (put (m b) i v)) := rfl

@[simp] theorem replace_same (m : Memory B w) (b : B) (f : Int → BitVec w) : replace m b f b = f := by
  simp [replace]

@[simp] theorem replace_replace (m : Memory B w) (b : B) (f g : Int → BitVec w) :
    replace (replace m b f) b g = replace m b g := by
  funext c
  by_cases h : c = b <;> simp [replace, h]

@[simp] theorem replace_self (m : Memory B w) (b : B) : replace m b (m b) = m := by
  funext c
  by_cases h : c = b <;> simp [replace, h]

end

/-! ## Bounds -/

/-- Whatever it loads, the code touches only places in `inside`. -/
structure Within (inside : B × Int → Prop) (p : Code B w α) : Prop where
  asks : Asks (fun o => inside o.place) (fun _ _ => True) p

variable {inside : B × Int → Prop}

theorem within_pure (a : α) : Within inside (pure a : Code B w α) := ⟨trivial⟩

/-- Every place of `b` from `lo` up to `hi` is in `inside`. -/
def Covers (inside : B × Int → Prop) (b : B) (lo hi : Int) : Prop :=
  ∀ a, lo ≤ a → a < hi → inside (b, a)

variable {b : B} {lo hi : Int}

theorem Covers.load {i : Int} (h : Covers inside b lo hi) (hlo : lo ≤ i) (hhi : i < hi) :
    Within inside (Access.load b i : Code B w _) :=
  ⟨⟨h i hlo hhi, fun _ _ => trivial⟩⟩

theorem Covers.store {i : Int} {v : BitVec w} (h : Covers inside b lo hi) (hlo : lo ≤ i)
    (hhi : i < hi) : Within inside (Access.store b i v) :=
  ⟨⟨h i hlo hhi, fun _ _ => trivial⟩⟩

theorem Covers.shrink {lo' hi' : Int} (h : Covers inside b lo hi) (hlo : lo ≤ lo') (hhi : hi' ≤ hi) :
    Covers inside b lo' hi' :=
  fun a ha ha' => h a (by omega) (by omega)

theorem Within.bind {p : Code B w α} {f : α → Code B w β} (hp : Within inside p)
    (hf : ∀ a, Within inside (f a)) : Within inside (p >>= f) :=
  ⟨asks_bind hp.asks (post_true p fun a => (hf a).asks)⟩

/-- Where what comes first is known to return is known too. -/
theorem Within.bind_post {p : Code B w α} {f : α → Code B w β} {Q : α → Prop}
    (hp : Within inside p) (hq : Post (fun _ _ => True) Q p) (hf : ∀ a, Q a → Within inside (f a)) :
    Within inside (p >>= f) :=
  ⟨asks_bind hp.asks (hq.mono fun a ha => (hf a ha).asks)⟩

/-- **Soundness of bounds.** -/
theorem accesses_within [DecidableEq B] {p : Code B w α} (h : Within inside p) (m : Memory B w) :
    ∀ a ∈ accesses p m, inside a := by
  obtain ⟨h⟩ := h
  induction p generalizing m with
  | ret a => exact fun a ha => absurd ha List.not_mem_nil
  | call o k ih =>
    intro a ha
    rcases List.mem_cons.mp ha with rfl | ha
    · exact h.1
    · exact ih _ _ (h.2 _ trivial) a ha

section

variable [DecidableEq B] {m : Memory B w} {a : B × Int}

theorem mem_accesses_left {p : Code B w α} {f : α → Code B w β} (h : a ∈ accesses p m) :
    a ∈ accesses (p >>= f) m := by
  rw [accesses_bind]
  exact List.mem_append_left _ h

theorem mem_accesses_right {p : Code B w α} {f : α → Code B w β}
    (h : ∀ r m, a ∈ accesses (f r) m) : a ∈ accesses (p >>= f) m := by
  rw [accesses_bind]
  exact List.mem_append_right _ (h _ _)

end

/-! ## Vectors and blocks -/

/-- Load `n` consecutive words into lanes. -/
def loadVec (b : B) (addr : Int) : (n : Nat) → Code B w (Vec n w)
  | 0 => pure fun i => i.elim0
  | n + 1 => do
    let v ← loadVec b addr n
    let last ← load b (addr + n)
    return fun i => if h : i.val < n then v ⟨i, h⟩ else last

def storeVec (b : B) (addr : Int) : {n : Nat} → Vec n w → Code B w Unit
  | 0, _ => pure ()
  | n + 1, v => do
    storeVec b addr fun i : Fin n => v i.castSucc
    store b (addr + n) (v (Fin.last n))

/-- Copy `n` words inside one buffer. -/
def copy (b : B) (dst src : Int) : Nat → Code B w Unit
  | 0 => pure ()
  | n + 1 => do
    copy b dst src n
    let v ← load b (src + n)
    store b (dst + n) v

section

variable [DecidableEq B]

@[simp] theorem exec_loadVec (b : B) (addr : Int) (n : Nat) (m : Memory B w) :
    exec (loadVec b addr n) m = (vld1 (m b) addr, m) := by
  induction n with
  | zero =>
    refine Prod.ext (funext fun i => i.elim0) rfl
  | succ n ih =>
    simp only [loadVec, exec_bind, ih, exec_load, exec_pure]
    refine Prod.ext (funext fun i => ?_) rfl
    by_cases h : i.val < n
    · simp [h, vld1]
    · have hi : i.val = n := by omega
      simp [vld1, hi]

@[simp] theorem exec_storeVec (b : B) (addr : Int) {n : Nat} (v : Vec n w) (m : Memory B w) :
    exec (storeVec b addr v) m = ((), replace m b (vst1 (m b) addr v)) := by
  induction n with
  | zero =>
    have hnone : vst1 (m b) addr v = m b := by
      funext i
      simp [vst1]
    rw [hnone, replace_self]
    rfl
  | succ n ih =>
    simp only [storeVec, exec_bind, ih, exec_store, replace_same, replace_replace]
    refine Prod.ext rfl (congrArg (replace m b) (funext fun i => ?_))
    by_cases hlast : i = addr + n
    · subst hlast
      simp [put, vst1, Fin.last]
    · by_cases hin : (i - addr).toNat < n ∧ addr ≤ i
      · have hin' : (i - addr).toNat < n + 1 := by omega
        simp [put, vst1, hlast, hin, hin']
      · have hout : ¬ ((i - addr).toNat < n + 1 ∧ addr ≤ i) := by omega
        simp only [put, vst1, hlast, hin, hout, ↓reduceIte, ↓reduceDIte]

/-- Copying between disjoint ranges reads what was there before. -/
theorem exec_copy (b : B) {dst src : Int} {n : Nat} (hd : dst + n ≤ src ∨ src + n ≤ dst)
    (m : Memory B w) :
    exec (copy b dst src n) m = ((), replace m b fun i =>
      if dst ≤ i ∧ i < dst + n then m b (src + (i - dst)) else m b i) := by
  induction n with
  | zero =>
    have hnone : (fun i => if dst ≤ i ∧ i < dst + (0 : Nat) then m b (src + (i - dst)) else m b i) =
        m b := by
      funext i
      rw [if_neg (by omega)]
    rw [hnone, replace_self]
    rfl
  | succ n ih =>
    simp only [copy, exec_bind, ih (by omega), exec_load, exec_store, replace_same, replace_replace]
    refine Prod.ext rfl (congrArg (replace m b) (funext fun i => ?_))
    rw [if_neg (show ¬ (dst ≤ src + (n : Int) ∧ src + (n : Int) < dst + n) by omega)]
    by_cases hlast : i = dst + n
    · subst hlast
      rw [put, if_pos rfl, if_pos (by omega)]
      congr 1
      omega
    · rw [put, if_neg hlast]
      exact if_congr (by omega) rfl rfl

end

theorem Covers.loadVec {addr : Int} {n : Nat} (h : Covers inside b lo hi) (hlo : lo ≤ addr)
    (hhi : addr + n ≤ hi) : Within inside (Access.loadVec b addr n : Code B w _) := by
  induction n with
  | zero => exact within_pure _
  | succ n ih =>
    exact .bind (ih (by omega)) fun _ => .bind (h.load (by omega) (by omega)) fun _ => within_pure _

theorem Covers.storeVec {addr : Int} {n : Nat} {v : Vec n w} (h : Covers inside b lo hi)
    (hlo : lo ≤ addr) (hhi : addr + n ≤ hi) : Within inside (Access.storeVec b addr v) := by
  induction n with
  | zero => exact within_pure _
  | succ n ih => exact .bind (ih (by omega)) fun _ => h.store (by omega) (by omega)

theorem Covers.copy {dst src : Int} {n : Nat} (h : Covers inside b lo hi) (hsrc : lo ≤ src)
    (hsrc' : src + n ≤ hi) (hdst : lo ≤ dst) (hdst' : dst + n ≤ hi) :
    Within inside (Access.copy b dst src n : Code B w _) := by
  induction n with
  | zero => exact within_pure _
  | succ n ih =>
    exact .bind (ih (by omega) (by omega)) fun _ =>
      .bind (h.load (by omega) (by omega)) fun _ => h.store (by omega) (by omega)

/-- Copying reads all of its source and writes all of its destination. -/
theorem mem_accesses_copy [DecidableEq B] {dst src : Int} {n : Nat} {x : Int}
    (h : src ≤ x ∧ x < src + n ∨ dst ≤ x ∧ x < dst + n) (m : Memory B w) :
    (b, x) ∈ accesses (copy b dst src n) m := by
  induction n with
  | zero => omega
  | succ n ih =>
    by_cases hfirst : src ≤ x ∧ x < src + n ∨ dst ≤ x ∧ x < dst + n
    · exact mem_accesses_left (ih hfirst)
    · have hlast : x = src + n ∨ x = dst + n := by omega
      rcases hlast with rfl | rfl
      · exact mem_accesses_right fun _ _ => List.mem_cons_self
      · exact mem_accesses_right fun _ _ => List.mem_cons_of_mem _ List.mem_cons_self

/-! ## Loops -/

/-- `forLoop` of code. -/
def loop (cond : Int → Bool) (stride : Int) (body : Int → Code B w Unit) : Nat → Int → Code B w Int
  | 0, x => pure x
  | fuel + 1, x =>
    if cond x then body x >>= fun _ => loop cond stride body fuel (x + stride) else pure x

theorem exec_loop [DecidableEq B] (cond : Int → Bool) (stride : Int) (body : Int → Code B w Unit)
    (fuel : Nat) (x : Int) (m : Memory B w) :
    exec (loop cond stride body fuel x) m =
      forLoop cond stride (fun x m => (exec (body x) m).2) fuel x m := by
  induction fuel generalizing x m with
  | zero => rfl
  | succ fuel ih =>
    by_cases hc : cond x = true
    · simp only [loop, forLoop, hc, ↓reduceIte, exec_bind, ih]
    · simp only [loop, forLoop, hc, Bool.false_eq_true, ↓reduceIte, exec_pure]

/-- A loop whose iterations act as `step` on what the memory stands for. -/
theorem exec_loop_map [DecidableEq B] {σ : Type} {cond : Int → Bool} {stride : Int}
    {body : Int → Code B w Unit} {step : Int → σ → σ} (g : σ → Memory B w)
    (h : ∀ x s, exec (body x) (g s) = ((), g (step x s))) (fuel : Nat) (x : Int) (s : σ) :
    exec (loop cond stride body fuel x) (g s) =
      ((forLoop cond stride step fuel x s).1, g (forLoop cond stride step fuel x s).2) := by
  rw [exec_loop]
  exact forLoop_map g (fun x s => congrArg Prod.snd (h x s)) fuel x s

theorem loop_counter {cond : Int → Bool} {stride : Int} {body : Int → Code B w Unit}
    (hs : 0 ≤ stride) (fuel : Nat) (x : Int) :
    Post (fun _ _ => True) (fun r => x ≤ r) (loop cond stride body fuel x) := by
  induction fuel generalizing x with
  | zero => exact Int.le_refl x
  | succ fuel ih =>
    by_cases hc : cond x = true
    · simp only [loop, hc, ↓reduceIte]
      refine post_bind.mpr (post_true _ fun _ => (ih (x + stride)).mono fun r hr => ?_)
      omega
    · simp only [loop, hc, Bool.false_eq_true, ↓reduceIte]
      exact Int.le_refl x

/-- A loop that starts makes its first iteration. -/
theorem mem_accesses_loop [DecidableEq B] {cond : Int → Bool} {stride : Int}
    {body : Int → Code B w Unit} {fuel : Nat} {x : Int} {m : Memory B w} {a : B × Int} (hf : 0 < fuel)
    (hc : cond x = true) (h : a ∈ accesses (body x) m) : a ∈ accesses (loop cond stride body fuel x) m := by
  obtain ⟨fuel, rfl⟩ := Nat.exists_eq_add_of_lt hf
  simp only [Nat.zero_add, loop, hc, ↓reduceIte]
  exact mem_accesses_left h

/-- **Bounds of a loop**: every iteration it makes, from the start of the counter on. -/
theorem within_loop {cond : Int → Bool} {stride : Int} {body : Int → Code B w Unit} (hs : 0 ≤ stride)
    {x : Int} (hbody : ∀ i, x ≤ i → cond i = true → Within inside (body i)) (fuel : Nat) :
    Within inside (loop cond stride body fuel x) := by
  induction fuel generalizing x with
  | zero => exact within_pure _
  | succ fuel ih =>
    by_cases hc : cond x = true
    · simp only [loop, hc, ↓reduceIte]
      refine .bind (hbody x (Int.le_refl x) hc) fun _ => ih fun i hi => hbody i (by omega)
    · simp only [loop, hc, Bool.false_eq_true, ↓reduceIte]
      exact within_pure _

end MochaHal.Access
