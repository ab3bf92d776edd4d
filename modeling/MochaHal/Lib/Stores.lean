import MochaHal.Lib.Loop
import MochaHal.Lib.Neon

/-! Bounds on what store operations touch.  A store operation maps memories to
memories; `Within cap f` says that it changes nothing outside the first `cap`
cells, and the rules below compose such facts along sequences, loops and vector
stores.  `Updates lo hi val f` is the exact version: `f` replaces the cells
`lo .. hi - 1` as `val` says and changes no other; `Fills` is the case in which
the old values do not matter. -/

namespace MochaHal.Stores
open MochaHal.Loop MochaHal.Neon

variable {V : Type} {cap : Int} {f g : (Int → V) → Int → V}

/-- Only cells `0 .. cap - 1` are changed. -/
def Within (cap : Int) (f : (Int → V) → Int → V) : Prop :=
  ∀ m o, o < 0 ∨ cap ≤ o → f m o = m o

theorem within_id : Within cap (id : (Int → V) → Int → V) := fun _ _ _ => rfl

theorem Within.comp (hg : Within cap g) (hf : Within cap f) : Within cap (fun m => g (f m)) :=
  fun m o ho => (hg (f m) o ho).trans (hf m o ho)

theorem Within.mono {cap' : Int} (hf : Within cap f) (h : cap ≤ cap') : Within cap' f :=
  fun m o ho => hf m o (ho.imp id (Int.le_trans h))

/-- The counter of a loop stays on the grid of its stride. -/
theorem forLoop_counter {σ : Type} {cond : Int → Bool} {stride : Int} {body : Int → σ → σ}
    (hs : 0 ≤ stride) (fuel : Nat) (x : Int) (s : σ) :
    x ≤ (forLoop cond stride body fuel x s).1 ∧ stride ∣ (forLoop cond stride body fuel x s).1 - x := by
  refine forLoop_rule (fun i _ => x ≤ i ∧ stride ∣ i - x) ?_ fuel x s ⟨Int.le_refl x, by simp⟩
  rintro i s' - ⟨hi, hd⟩
  refine ⟨by omega, ?_⟩
  rw [show i + stride - x = i - x + stride by omega]
  exact Int.dvd_add hd (Int.dvd_refl stride)

/-- A loop whose iterations stay within stays within. -/
theorem within_forLoop {G : Int → Prop} [DecidablePred G] {stride : Int}
    {body : Int → (Int → V) → Int → V} {x : Int} (hs : 0 ≤ stride)
    (hbody : ∀ i, x ≤ i → stride ∣ i - x → G i → Within cap (body i)) (fuel : Nat) :
    Within cap (fun m => (forLoop (fun i => decide (G i)) stride body fuel x m).2) := by
  intro m o ho
  refine (forLoop_rule (fun i m' => (x ≤ i ∧ stride ∣ i - x) ∧ m' o = m o) ?_ fuel x m
    ⟨⟨Int.le_refl x, by simp⟩, rfl⟩).2
  rintro i m' hc ⟨⟨hi, hd⟩, hm⟩
  have hnext : stride ∣ i + stride - x := by
    rw [show i + stride - x = i - x + stride by omega]
    exact Int.dvd_add hd (Int.dvd_refl stride)
  exact ⟨⟨by omega, hnext⟩, (hbody i hi hd (of_decide_eq_true hc) m' o ho).trans hm⟩

/-- Two loops in a row, the second going on where the first stopped on a finer grid. -/
theorem within_forLoop₂ {G H : Int → Prop} [DecidablePred G] [DecidablePred H] {a b : Int}
    {body rest : Int → (Int → V) → Int → V} {x : Int} (ha : 0 ≤ a) (hb : 0 ≤ b) (hab : b ∣ a)
    (hbody : ∀ i, x ≤ i → a ∣ i - x → G i → Within cap (body i))
    (hrest : ∀ i, x ≤ i → b ∣ i - x → H i → Within cap (rest i)) (n k : Nat) :
    Within cap (fun m =>
      let r := forLoop (fun i => decide (G i)) a body n x m
      (forLoop (fun i => decide (H i)) b rest k r.1 r.2).2) := by
  intro m o ho
  have hfirst : (forLoop (fun i => decide (G i)) a body n x m).2 o = m o :=
    within_forLoop ha hbody n m o ho
  have hcount : x ≤ (forLoop (fun i => decide (G i)) a body n x m).1 ∧
      a ∣ (forLoop (fun i => decide (G i)) a body n x m).1 - x := forLoop_counter ha n x m
  dsimp only
  generalize forLoop (fun i => decide (G i)) a body n x m = r at hfirst hcount ⊢
  refine (within_forLoop hb (fun i hi hd hg => hrest i (Int.le_trans hcount.1 hi) ?_ hg) k r.2 o ho).trans
    hfirst
  rw [show i - x = i - r.1 + (r.1 - x) by omega]
  exact Int.dvd_add hd (Int.dvd_trans hab hcount.2)

theorem within_vst1 {n w : Nat} {addr : Int} (v : Vec n w) (h0 : 0 ≤ addr) (h1 : addr + n ≤ cap) :
    Within cap (fun m => vst1 m addr v) := by
  intro m o ho
  simp only [vst1]
  exact dif_neg (by omega)

/-! ## Updating a range -/

/-- Every cell of `lo .. hi - 1` gets a value that depends on what it held, all
others are kept. -/
def Updates (lo hi : Int) (val : Int → V → V) (f : (Int → V) → Int → V) : Prop :=
  ∀ m o, f m o = if lo ≤ o ∧ o < hi then val o (m o) else m o

/-- Every cell of `lo .. hi - 1` gets a value that does not depend on the memory. -/
abbrev Fills (lo hi : Int) (val : Int → V) (f : (Int → V) → Int → V) : Prop :=
  Updates lo hi (fun o _ => val o) f

section Updates
variable {lo mid hi : Int} {val val' : Int → V → V}

theorem Updates.append (hf : Updates lo mid val f) (hg : Updates mid hi val g) (h1 : lo ≤ mid)
    (h2 : mid ≤ hi) : Updates lo hi val (fun m => g (f m)) := by
  intro m o
  simp only [hg (f m) o, hf m o]
  grind

theorem Updates.congr (hf : Updates lo hi val f) (h : ∀ o, lo ≤ o → o < hi → ∀ v, val o v = val' o v) :
    Updates lo hi val' f := by
  intro m o
  rw [hf m o]
  split
  · rename_i hin
    exact h o hin.1 hin.2 (m o)
  · rfl

theorem Updates.reindex {lo' hi' : Int} (hf : Updates lo hi val f) (h1 : lo = lo') (h2 : hi = hi') :
    Updates lo' hi' val f := by
  subst h1 h2
  exact hf

theorem Updates.inside (hf : Updates lo hi val f) {m : Int → V} {o : Int} (h1 : lo ≤ o) (h2 : o < hi) :
    f m o = val o (m o) := by
  rw [hf m o, if_pos ⟨h1, h2⟩]

theorem Updates.outside (hf : Updates lo hi val f) {m : Int → V} {o : Int} (h : o < lo ∨ hi ≤ o) :
    f m o = m o := by
  rw [hf m o, if_neg (by omega)]

theorem fills_vst1 {n w : Nat} {addr : Int} {val : Int → BitVec w} (v : Vec n w)
    (h : ∀ i : Fin n, v i = val (addr + (i : Nat))) :
    Fills addr (addr + n) val (fun m => vst1 m addr v) := by
  intro m o
  simp only [vst1]
  by_cases hin : addr ≤ o ∧ o < addr + n
  · rw [if_pos hin, dif_pos ⟨by omega, hin.1⟩, h]
    congr 1
    simp only
    omega
  · rw [if_neg hin, dif_neg (by omega)]

/-- **Updating loop.**  Iteration `i` updates from `pos i` to `pos (i + stride)`; the
loop updates up to the position of the counter it stops at. -/
theorem updates_forLoop_to {G : Int → Prop} [DecidablePred G] {stride : Int} {pos : Int → Int}
    {body : Int → (Int → V) → Int → V} {x : Int} (hs : 0 ≤ stride)
    (hmono : ∀ i j, i ≤ j → pos i ≤ pos j)
    (hbody : ∀ i, x ≤ i → stride ∣ i - x → G i → Updates (pos i) (pos (i + stride)) val (body i))
    (fuel : Nat) (m : Int → V) (o : Int) :
    (forLoop (fun i => decide (G i)) stride body fuel x m).2 o =
      if pos x ≤ o ∧ o < pos (forLoop (fun i => decide (G i)) stride body fuel x m).1
        then val o (m o) else m o := by
  refine (forLoop_rule (fun i m' => (x ≤ i ∧ stride ∣ i - x) ∧
    m' o = if pos x ≤ o ∧ o < pos i then val o (m o) else m o) ?_ fuel x m
    ⟨⟨Int.le_refl x, by simp⟩, by rw [if_neg (by omega)]⟩).2
  rintro i m' hc ⟨⟨hi, hd⟩, hm⟩
  have hnext : stride ∣ i + stride - x := by
    rw [show i + stride - x = i - x + stride by omega]
    exact Int.dvd_add hd (Int.dvd_refl stride)
  refine ⟨⟨by omega, hnext⟩, ?_⟩
  have hx := hmono x i hi
  have hi' := hmono i (i + stride) (by omega)
  rw [hbody i hi hd (of_decide_eq_true hc) m' o, hm]
  grind

/-- A loop whose guard on its grid is `i < bound` stops exactly at `bound`. -/
theorem forLoop_stops_at {σ : Type} {G : Int → Prop} [DecidablePred G] {stride bound : Int}
    {body : Int → σ → σ} (fuel : Nat) (x : Int) (s : σ) (hx : x ≤ bound)
    (hgrid : stride ∣ bound - x) (hG : ∀ i, stride ∣ i - x → (G i ↔ i < bound))
    (hf : bound ≤ fuel * stride + x) :
    (forLoop (fun i => decide (G i)) stride body fuel x s).1 = bound := by
  induction fuel generalizing x s with
  | zero =>
    simp only [forLoop]
    push_cast at hf
    omega
  | succ fuel ih =>
    by_cases hc : G x
    · have hlt : x < bound := (hG x (by simp)).mp hc
      have hgrid' : stride ∣ bound - (x + stride) := by
        rw [show bound - (x + stride) = bound - x - stride by omega]
        exact Int.dvd_sub hgrid (Int.dvd_refl stride)
      have hle : stride ≤ bound - x := Int.le_of_dvd (by omega) hgrid
      simp only [forLoop, hc, decide_true, ↓reduceIte]
      have hf' : bound ≤ fuel * stride + (x + stride) := by
        rw [Int.natCast_succ, Int.add_mul] at hf
        omega
      refine ih _ _ (by omega) hgrid' (fun i hi => hG i ?_) hf'
      rw [show i - x = i - (x + stride) + stride by omega]
      exact Int.dvd_add hi (Int.dvd_refl stride)
    · have hge : ¬ x < bound := fun h => hc ((hG x (by simp)).mpr h)
      simp only [forLoop, hc, decide_false, Bool.false_eq_true, ↓reduceIte]
      omega

theorem updates_forLoop (pos : Int → Int) {G : Int → Prop} [DecidablePred G] {stride : Int}
    {body : Int → (Int → V) → Int → V} {x bound : Int} (hs : 0 < stride)
    (hmono : ∀ i j, i ≤ j → pos i ≤ pos j) (hx : x ≤ bound) (hgrid : stride ∣ bound - x)
    (hG : ∀ i, stride ∣ i - x → (G i ↔ i < bound))
    (hbody : ∀ i, x ≤ i → stride ∣ i - x → G i → Updates (pos i) (pos (i + stride)) val (body i))
    {fuel : Nat} (hf : bound ≤ fuel * stride + x) :
    Updates (pos x) (pos bound) val
      (fun m => (forLoop (fun i => decide (G i)) stride body fuel x m).2) := by
  intro m o
  dsimp only
  rw [updates_forLoop_to (Int.le_of_lt hs) hmono hbody fuel m o,
    forLoop_stops_at fuel x m hx hgrid hG hf]

/-- A loop in large strides and one that updates what it left, on a finer grid. -/
theorem updates_forLoop₂ (pos : Int → Int) {G H : Int → Prop} [DecidablePred G] [DecidablePred H]
    {a b : Int} {body rest : Int → (Int → V) → Int → V} {x bound : Int} (ha : 0 < a)
    (hb : 0 < b) (hab : b ∣ a) (hmono : ∀ i j, i ≤ j → pos i ≤ pos j) (hx : x ≤ bound)
    (hgrid : b ∣ bound - x) (hG : ∀ i, G i → i + a ≤ bound)
    (hH : ∀ i, b ∣ i - x → (H i ↔ i < bound))
    (hbody : ∀ i, x ≤ i → a ∣ i - x → G i → Updates (pos i) (pos (i + a)) val (body i))
    (hrest : ∀ i, x ≤ i → b ∣ i - x → H i → Updates (pos i) (pos (i + b)) val (rest i))
    (n : Nat) {k : Nat} (hk : bound ≤ k * b + x) :
    Updates (pos x) (pos bound) val (fun m =>
      let r := forLoop (fun i => decide (G i)) a body n x m
      (forLoop (fun i => decide (H i)) b rest k r.1 r.2).2) := by
  intro m o
  have hbound : (forLoop (fun i => decide (G i)) a body n x m).1 ≤ bound :=
    forLoop_rule (fun i _ => i ≤ bound) (fun i _ hc _ => hG i (of_decide_eq_true hc)) n x m hx
  have hcount : x ≤ (forLoop (fun i => decide (G i)) a body n x m).1 ∧
      a ∣ (forLoop (fun i => decide (G i)) a body n x m).1 - x :=
    forLoop_counter (Int.le_of_lt ha) n x m
  have hfirst := updates_forLoop_to (Int.le_of_lt ha) hmono hbody n m o
  dsimp only
  generalize forLoop (fun i => decide (G i)) a body n x m = r at hbound hfirst hcount ⊢
  obtain ⟨hxr, hdr⟩ := hcount
  have hdr' : b ∣ r.1 - x := Int.dvd_trans hab hdr
  have hshift : ∀ i, b ∣ i - r.1 → b ∣ i - x := by
    intro i hi
    rw [show i - x = i - r.1 + (r.1 - x) by omega]
    exact Int.dvd_add hi hdr'
  have hgrid' : b ∣ bound - r.1 := by
    rw [show bound - r.1 = bound - x - (r.1 - x) by omega]
    exact Int.dvd_sub hgrid hdr'
  have hsecond : Updates (pos r.1) (pos bound) val
      (fun m => (forLoop (fun i => decide (H i)) b rest k r.1 m).2) :=
    updates_forLoop pos hb hmono hbound hgrid' (fun i hi => hH i (hshift i hi))
      (fun i hi hd hg => hrest i (by omega) (hshift i hd) hg) (by omega)
  have h1 := hmono x r.1 hxr
  have h2 := hmono r.1 bound hbound
  refine (hsecond r.2 o).trans ?_
  rw [hfirst]
  grind

end Updates

end MochaHal.Stores
