import MochaHal.Camera.Pipeline

/-! The contrast-detection sweep.  A coarse and a fine sweep keep the best position so
far; the fine one does not measure the best position again.  When no coarse position shows
any contrast the best position is still the default 400, which was never measured, and the
fine sweep passes over it (`afScan_locks_iff`). -/

namespace MochaHal.Camera.CameraPipeline
open MochaHal.Prog

/-! ## The sweeps on a contrast function -/

/-- The pair of `bestEnergy` and `bestPos` after a measurement. -/
def better (best : Int × Int) (pos energy : Int) : Int × Int :=
  if energy > best.1 then (energy, pos) else best

def coarsePositions : List Int := sweepRange 50 140 640

/-- The positions of the fine sweep around `w`. -/
def finePositions (w : Int) : List Int :=
  sweepRange 10 (if w - 50 < 140 then 140 else w - 50) (if w + 50 > 640 then 640 else w + 50)

/-- The coarse winner and its contrast; the default position 400 when nothing shows any. -/
def coarseBest (E : Int → Int) : Int × Int :=
  coarsePositions.foldl (fun best pos => better best pos (E pos)) (0, 400)

/-- The fine sweep, which passes over the position that is the best one. -/
def fineBest (E : Int → Int) : List Int → Int × Int → Int × Int
  | [], best => best
  | pos :: rest, best =>
    if pos = best.2 then fineBest E rest best else fineBest E rest (better best pos (E pos))

/-- The position at which the scan ends. -/
def lockedPosition (E : Int → Int) : Int :=
  (fineBest E (finePositions (coarseBest E).2) (coarseBest E)).2

/-- The coarse grid and the fine positions around the coarse winner. -/
def candidates (E : Int → Int) : List Int := coarsePositions ++ finePositions (coarseBest E).2

/-- `best` is the best of the positions `seen`, or the default when none shows contrast. -/
def BestOf (E : Int → Int) (seen : List Int) (best : Int × Int) : Prop :=
  best = (0, 400) ∧ (∀ q ∈ seen, E q ≤ 0) ∨
  best.2 ∈ seen ∧ 0 < best.1 ∧ best.1 = E best.2 ∧ ∀ q ∈ seen, E q ≤ best.1

section
variable {E : Int → Int} {seen l : List Int} {best : Int × Int} {pos : Int}

theorem BestOf.nonneg (h : BestOf E seen best) : 0 ≤ best.1 := by
  rcases h with ⟨rfl, -⟩ | ⟨-, hpos, -, -⟩
  · exact le_refl _
  · exact hpos.le

theorem better_pos (h : 0 < best.1) : 0 < (better best pos (E pos)).1 := by
  unfold better
  split
  · dsimp only
    omega
  · exact h

/-- A position is measured. -/
theorem BestOf.measure (h : BestOf E seen best) (pos : Int) :
    BestOf E (seen ++ [pos]) (better best pos (E pos)) := by
  have hnonneg := h.nonneg
  unfold better
  by_cases hgt : E pos > best.1
  · rw [if_pos hgt]
    refine .inr ⟨by simp, by dsimp only; omega, rfl, ?_⟩
    intro q hq
    rcases List.mem_append.mp hq with hq | hq
    · rcases h with ⟨-, hseen⟩ | ⟨-, -, -, hseen⟩
      · have := hseen q hq
        dsimp only
        omega
      · have := hseen q hq
        dsimp only
        omega
    · rw [List.mem_singleton.mp hq]
  · rw [if_neg hgt]
    rcases h with ⟨hdef, hseen⟩ | ⟨hmem, hpos, heq, hseen⟩
    · refine .inl ⟨hdef, ?_⟩
      intro q hq
      rcases List.mem_append.mp hq with hq | hq
      · exact hseen q hq
      · rw [hdef] at hgt
        rw [List.mem_singleton.mp hq]
        exact not_lt.mp hgt
    · refine .inr ⟨List.mem_append_left _ hmem, hpos, heq, ?_⟩
      intro q hq
      rcases List.mem_append.mp hq with hq | hq
      · exact hseen q hq
      · rw [List.mem_singleton.mp hq]
        exact not_lt.mp hgt

/-- The best position, passed over, has the contrast that it is known for. -/
theorem BestOf.passOver (h : BestOf E seen best) (hpos : 0 < best.1) :
    BestOf E (seen ++ [best.2]) best := by
  rcases h with ⟨hdef, -⟩ | ⟨hmem, -, heq, hseen⟩
  · rw [hdef] at hpos
    exact absurd hpos (lt_irrefl 0)
  · refine .inr ⟨by simp, hpos, heq, ?_⟩
    intro q hq
    rcases List.mem_append.mp hq with hq | hq
    · exact hseen q hq
    · rw [List.mem_singleton.mp hq, heq]

theorem BestOf.sweep (h : BestOf E seen best) :
    BestOf E (seen ++ l) (l.foldl (fun best pos => better best pos (E pos)) best) := by
  induction l generalizing seen best with
  | nil => simpa using h
  | cons pos l ih =>
    have hrest := ih (h.measure pos)
    rwa [List.append_assoc, List.singleton_append] at hrest

/-- The fine sweep goes wrong only at the default position, and only as long as it is the
best one. -/
theorem BestOf.fine (h : BestOf E seen best) (hskip : 400 ∉ l ∨ 0 < best.1) :
    BestOf E (seen ++ l) (fineBest E l best) := by
  induction l generalizing seen best with
  | nil => simpa [fineBest] using h
  | cons pos l ih =>
    rw [fineBest]
    by_cases hbest : pos = best.2
    · rw [if_pos hbest]
      have hpos : 0 < best.1 := by
        rcases h with ⟨hdef, -⟩ | ⟨-, hpos, -, -⟩
        · rcases hskip with hnot | hpos
          · rw [hbest, hdef] at hnot
            exact absurd List.mem_cons_self hnot
          · exact hpos
        · exact hpos
      have hrest := ih (h.passOver hpos) (.inr hpos)
      rwa [List.append_assoc, List.singleton_append, ← hbest] at hrest
    · rw [if_neg hbest]
      have hrest := ih (h.measure pos) (hskip.imp (fun hnot hl => hnot (List.mem_cons_of_mem pos hl)) better_pos)
      rwa [List.append_assoc, List.singleton_append] at hrest

theorem le_fineBest (l : List Int) : best.1 ≤ (fineBest E l best).1 := by
  induction l generalizing best with
  | nil => exact le_refl _
  | cons pos l ih =>
    rw [fineBest]
    split
    · exact ih
    · refine le_trans ?_ ih
      unfold better
      split
      · exact le_of_lt (by assumption)
      · exact le_refl _

theorem fineBest_append (l₁ l₂ : List Int) :
    fineBest E (l₁ ++ l₂) best = fineBest E l₂ (fineBest E l₁ best) := by
  induction l₁ generalizing best with
  | nil => rfl
  | cons pos l₁ ih =>
    simp only [List.cons_append, fineBest]
    split
    · exact ih
    · exact ih

end

/-! ## Measurements of a run -/

section
variable (plat : Platform) (env : KernelEnv)

/-- The energy that the probe of `pos` measures when it begins at the point `c`. -/
def energyAt (c : Nat × CameraPipeline) (pos : Int) : Int :=
  (runFrom env (runFrom env c (setFocus pos)).2 (captureForAf plat)).1

/-- The point of the run after that probe. -/
def probed (c : Nat × CameraPipeline) (pos : Int) : Nat × CameraPipeline :=
  (runFrom env (runFrom env c (setFocus pos)).2 (captureForAf plat)).2

/-- The positions that a sweep from the point `c` on measures, with the energies. -/
def sweepLog : List Int → Nat × CameraPipeline → List (Int × Int)
  | [], _ => []
  | pos :: rest, c => (pos, energyAt plat env c pos) :: sweepLog rest (probed plat env c pos)

def fineLog : List Int → Int × Int → Nat × CameraPipeline → List (Int × Int)
  | [], _, _ => []
  | pos :: rest, best, c =>
    if pos = best.2 then fineLog rest best c
    else (pos, energyAt plat env c pos) ::
      fineLog rest (better best pos (energyAt plat env c pos)) (probed plat env c pos)

/-- The coarse sweep of a scan that begins at the point `c`. -/
def coarseRun (c : Nat × CameraPipeline) : (Int × Int) × (Nat × CameraPipeline) :=
  runFrom env c (afSweep plat coarsePositions (0, 400))

/-- All measurements of a scan. -/
def scanLog (c : Nat × CameraPipeline) : List (Int × Int) :=
  let coarse := coarseRun plat env c
  sweepLog plat env coarsePositions c ++ fineLog plat env (finePositions coarse.1.2) coarse.1 coarse.2

end

/-- A measurement of the contrast function `E`: its value, or an error where it is negative. -/
def Shows (E : Int → Int) (m : Int × Int) : Prop := m.2 = E m.1 ∨ m.2 < 0 ∧ E m.1 < 0

instance (E : Int → Int) (m : Int × Int) : Decidable (Shows E m) :=
  inferInstanceAs (Decidable (_ ∨ _ ∧ _))

section
variable {plat : Platform} {env : KernelEnv} {E : Int → Int} {c : Nat × CameraPipeline}
  {best : Int × Int} {l : List Int} {pos e : Int}

theorem better_shows (hbest : 0 ≤ best.1) (h : Shows E (pos, e)) :
    better best pos e = better best pos (E pos) := by
  rcases h with heq | ⟨hneg, hE⟩
  · rw [← heq]
  · unfold better
    dsimp only at hneg hE
    rw [if_neg (by omega), if_neg (by omega)]

theorem better_nonneg (hbest : 0 ≤ best.1) : 0 ≤ (better best pos e).1 := by
  unfold better
  split
  · dsimp only
    omega
  · exact hbest

theorem runFrom_afProbe : runFrom env c (afProbe plat best pos) =
    (better best pos (energyAt plat env c pos), probed plat env c pos) := by
  unfold afProbe
  rw [runFrom_bind, runFrom_bind]
  unfold energyAt probed better
  split <;> rfl

/-- A sweep whose measurements show `E` works on `E`. -/
theorem sweep_steady (h : ∀ m ∈ sweepLog plat env l c, Shows E m) (hbest : 0 ≤ best.1) :
    (runFrom env c (afSweep plat l best)).1 =
      l.foldl (fun best pos => better best pos (E pos)) best := by
  induction l generalizing best c with
  | nil => rfl
  | cons pos l ih =>
    rw [sweepLog, List.forall_mem_cons] at h
    rw [afSweep, runFrom_bind, runFrom_afProbe, ih h.2 (better_nonneg hbest), better_shows hbest h.1]
    rfl

theorem fine_steady (h : ∀ m ∈ fineLog plat env l best c, Shows E m) (hbest : 0 ≤ best.1) :
    (runFrom env c (startAfScan.afFine plat l best)).1 = fineBest E l best := by
  induction l generalizing best c with
  | nil => rfl
  | cons pos l ih =>
    rw [fineLog] at h
    rw [startAfScan.afFine, fineBest]
    by_cases hskip : pos = best.2
    · rw [if_pos hskip] at h ⊢
      rw [if_pos hskip]
      exact ih h hbest
    · rw [if_neg hskip, List.forall_mem_cons] at h
      rw [if_neg hskip, if_neg hskip, runFrom_bind, runFrom_afProbe,
        ih h.2 (better_nonneg hbest), better_shows hbest h.1]

end

/-! ## The end of the scan -/

/-- The last call that code begun at the point `c` makes. -/
def lastOf {α : Type} (env : KernelEnv) (c : Nat × CameraPipeline) (m : Pipe α) : Option KernelOp :=
  ((calls env c.1 (m c.2)).map Sigma.fst).getLast?

/-- The last call that a scan makes. -/
def lastCall (plat : Platform) (env : KernelEnv) (n : Nat) (p : CameraPipeline) : Option KernelOp :=
  lastOf env (n, p) (startAfScan plat)

/-- `setFocus(bestPos)` and the state after it. -/
def lockAt (pos : Int) : Pipe Unit := do
  let _ ← setFocus pos
  modify fun p => { p with mAfState := 4 }

/-- The point at which the scan begins to move the lens. -/
def scanStart (n : Nat) (p : CameraPipeline) : Nat × CameraPipeline := (n, { p with mAfState := 1 })

/-- The scan's measurements show `E`. -/
def Steady (plat : Platform) (env : KernelEnv) (n : Nat) (p : CameraPipeline) (E : Int → Int) : Prop :=
  ∀ m ∈ scanLog plat env (scanStart n p), Shows E m

section
variable {plat : Platform} {env : KernelEnv} {E : Int → Int} {n : Nat} {p : CameraPipeline} {pos : Int}

theorem lastOf_bind {α β : Type} {c : Nat × CameraPipeline} {m : Pipe α} {f : α → Pipe β} {o : KernelOp}
    (h : lastOf env (runFrom env c m).2 (f (runFrom env c m).1) = some o) :
    lastOf env c (m >>= f) = some o := by
  unfold lastOf at h ⊢
  rw [calls_stateBind, List.map_append, List.getLast?_append, h]
  rfl

theorem lastOf_lockAt (h0 : 0 ≤ pos) (h1 : pos ≤ 1023) (c : Nat × CameraPipeline) :
    lastOf env c (lockAt pos) = some (.setControl .focusAbsolute pos) := by
  have hcalls : calls env c.1 (setFocus pos c.2) = [⟨.setControl .focusAbsolute pos,
      env c.1 (.setControl .focusAbsolute pos)⟩] := by
    unfold setFocus
    rw [if_neg (not_lt.mpr h0), if_neg (not_lt.mpr h1), setCtrl, calls_askBind]
    unfold onlyIf
    split <;> rfl
  unfold lastOf lockAt
  rw [calls_stateBind, hcalls]
  rfl

theorem startAfScan_streaming (h : p.mState = .streaming) :
    startAfScan plat p = (afSweep plat coarsePositions (0, 400) >>= fun best =>
      startAfScan.afFine plat (finePositions best.2) best >>= fun best => lockAt best.2)
      { p with mAfState := 1 } := by
  unfold startAfScan
  change (if p.mState ≠ .streaming then _ else _ : Pipe Unit) p = _
  rw [if_neg (not_not.mpr h)]
  rfl

theorem Steady.coarse (h : Steady plat env n p E) :
    (coarseRun plat env (scanStart n p)).1 = coarseBest E :=
  sweep_steady (fun m hm => h m (List.mem_append_left _ hm)) (le_refl _)

theorem coarseBest_bestOf (E : Int → Int) : BestOf E coarsePositions (coarseBest E) := by
  have hnone : BestOf E [] (0, 400) := .inl ⟨rfl, fun _ hq => absurd hq List.not_mem_nil⟩
  exact hnone.sweep

theorem Steady.fine (h : Steady plat env n p E) :
    (runFrom env (coarseRun plat env (scanStart n p)).2 (startAfScan.afFine plat
      (finePositions (coarseBest E).2) (coarseBest E))).1 =
      fineBest E (finePositions (coarseBest E).2) (coarseBest E) := by
  refine fine_steady ?_ (coarseBest_bestOf E).nonneg
  intro m hm
  refine h m (List.mem_append_right _ ?_)
  rw [h.coarse]
  exact hm

/-- A steady scan ends with `setFocus` of the position that the sweeps on `E` find. -/
theorem lastCall_steady (hstream : p.mState = .streaming) (h : Steady plat env n p E)
    (h0 : 0 ≤ lockedPosition E) (h1 : lockedPosition E ≤ 1023) :
    lastCall plat env n p = some (.setControl .focusAbsolute (lockedPosition E)) := by
  unfold lastCall lastOf
  rw [startAfScan_streaming hstream]
  change lastOf env (scanStart n p) _ = _
  apply lastOf_bind
  change lastOf env (coarseRun plat env (scanStart n p)).2 (startAfScan.afFine plat
    (finePositions (coarseRun plat env (scanStart n p)).1.2) (coarseRun plat env (scanStart n p)).1 >>=
      fun best => lockAt best.2) = _
  rw [h.coarse]
  apply lastOf_bind
  rw [h.fine]
  exact lastOf_lockAt h0 h1 _

end

/-! ## Which position is locked -/

theorem mem_sweepRange {d a b q : Int} (h : q ∈ sweepRange d a b) :
    ∃ k : Nat, (k : Int) < (b - a) / d + 1 ∧ q = a + d * k := by
  simp only [sweepRange, List.mem_map, List.bind_eq_flatMap, List.mem_flatMap, List.mem_range,
    List.pure_def, List.mem_singleton] at h
  obtain ⟨j, ⟨k, hk, rfl⟩, rfl⟩ := h
  exact ⟨k, by omega, rfl⟩

theorem mem_finePositions {w q : Int} (h : q ∈ finePositions w) : 140 ≤ q ∧ q ≤ 640 := by
  obtain ⟨k, hk, rfl⟩ := mem_sweepRange h
  split_ifs at hk ⊢ <;> omega

theorem mem_coarsePositions {q : Int} (h : q ∈ coarsePositions) : 140 ≤ q ∧ q ≤ 640 := by
  obtain ⟨k, hk, rfl⟩ := mem_sweepRange h
  omega

/-- The fine positions on either side of the default position. -/
def belowDefault : List Int := [350, 360, 370, 380, 390]
def aboveDefault : List Int := [410, 420, 430, 440, 450]

theorem finePositions_default : finePositions 400 = belowDefault ++ 400 :: aboveDefault := by decide

/-- The default position is passed over although it has more contrast than any other:
nothing shows contrast before it, and something behind it shows less. -/
structure DefaultShadowed (E : Int → Int) : Prop where
  coarse : ∀ q ∈ coarsePositions, E q ≤ 0
  below : ∀ q ∈ belowDefault, E q ≤ 0
  above : ∃ q ∈ aboveDefault, 0 < E q
  default : ∀ q ∈ aboveDefault, E q < E 400

/-- The position at which the scan ends is the best of all candidates. -/
def LocksBest (E : Int → Int) : Prop :=
  140 ≤ lockedPosition E ∧ lockedPosition E ≤ 640 ∧ ∀ q ∈ candidates E, E q ≤ E (lockedPosition E)

section
variable {E : Int → Int}

theorem mem_candidates {q : Int} (h : q ∈ candidates E) : 140 ≤ q ∧ q ≤ 640 := by
  rcases List.mem_append.mp h with h | h
  · exact mem_coarsePositions h
  · exact mem_finePositions h

/-- A final best position with contrast is the best candidate. -/
theorem locksBest_of_bestOf {best : Int × Int}
    (hbest : fineBest E (finePositions (coarseBest E).2) (coarseBest E) = best)
    (h : BestOf E (candidates E) best) (hpos : 0 < best.1) : LocksBest E := by
  unfold LocksBest lockedPosition
  rw [hbest]
  rcases h with ⟨rfl, -⟩ | ⟨hmem, -, heq, hall⟩
  · exact absurd hpos (lt_irrefl 0)
  · rw [← heq]
    exact ⟨(mem_candidates hmem).1, (mem_candidates hmem).2, hall⟩

theorem locksBest_of_coarse (h : 0 < (coarseBest E).1) : LocksBest E :=
  locksBest_of_bestOf rfl ((coarseBest_bestOf E).fine (.inr h)) (lt_of_lt_of_le h (le_fineBest _))

/-- Without contrast on the coarse grid the fine sweep is around the default position. -/
theorem fine_default (hdef : coarseBest E = (0, 400)) :
    fineBest E (finePositions (coarseBest E).2) (coarseBest E) =
      fineBest E (400 :: aboveDefault) (fineBest E belowDefault (0, 400)) := by
  rw [hdef, finePositions_default, fineBest_append]

theorem candidates_default (hdef : coarseBest E = (0, 400)) :
    candidates E = (coarsePositions ++ belowDefault) ++ 400 :: aboveDefault := by
  rw [candidates, hdef, finePositions_default, List.append_assoc]

theorem below_bestOf (hdef : coarseBest E = (0, 400)) :
    BestOf E (coarsePositions ++ belowDefault) (fineBest E belowDefault (0, 400)) := by
  have hcoarse := coarseBest_bestOf E
  rw [hdef] at hcoarse
  exact hcoarse.fine (.inl (by decide))

theorem locksBest_of_below (hdef : coarseBest E = (0, 400))
    (h : 0 < (fineBest E belowDefault (0, 400)).1) : LocksBest E := by
  refine locksBest_of_bestOf (fine_default hdef) ?_ (lt_of_lt_of_le h (le_fineBest _))
  rw [candidates_default hdef]
  exact (below_bestOf hdef).fine (.inr h)

/-- Nothing up to the default position shows contrast, so it is passed over. -/
theorem passed_over (hbelow : fineBest E belowDefault (0, 400) = (0, 400)) :
    fineBest E (400 :: aboveDefault) (fineBest E belowDefault (0, 400)) =
      fineBest E aboveDefault (0, 400) := by
  rw [hbelow, fineBest, if_pos rfl]

theorem BestOf.default_of_zero {seen : List Int} {best : Int × Int} (h : BestOf E seen best)
    (h0 : ¬ 0 < best.1) : best = (0, 400) ∧ ∀ q ∈ seen, E q ≤ 0 := by
  rcases h with h | ⟨-, hpos, -, -⟩
  · exact h
  · exact absurd hpos h0

theorem mem_candidates_default (hdef : coarseBest E = (0, 400)) {q : Int} :
    q ∈ candidates E ↔ q ∈ coarsePositions ++ belowDefault ∨ q = 400 ∨ q ∈ aboveDefault := by
  rw [candidates_default hdef, List.mem_append, List.mem_cons]

theorem lockedPosition_default (hdef : coarseBest E = (0, 400))
    (hbelow : fineBest E belowDefault (0, 400) = (0, 400)) :
    lockedPosition E = (fineBest E aboveDefault (0, 400)).2 := by
  rw [lockedPosition, fine_default hdef, passed_over hbelow]

theorem above_bestOf : BestOf E aboveDefault (fineBest E aboveDefault (0, 400)) := by
  have hnone : BestOf E [] (0, 400) := .inl ⟨rfl, fun _ hq => absurd hq List.not_mem_nil⟩
  exact hnone.fine (.inl (by decide))

/-- The best of the positions behind the default is locked: only the default can have more
contrast. -/
theorem locksBest_above_iff (hdef : coarseBest E = (0, 400))
    (hlow : ∀ q ∈ coarsePositions ++ belowDefault, E q ≤ 0) {pos : Int} (hlock : lockedPosition E = pos)
    (hin : pos ∈ aboveDefault) (hpos : 0 < E pos) (hall : ∀ q ∈ aboveDefault, E q ≤ E pos) :
    LocksBest E ↔ ¬ DefaultShadowed E := by
  have hcand := (mem_candidates_default hdef).mpr (.inr (.inr hin))
  unfold LocksBest
  rw [hlock]
  constructor
  · intro hlocks hshadow
    have hbest := hlocks.2.2 400 ((mem_candidates_default hdef).mpr (.inr (.inl rfl)))
    have hless := hshadow.default pos hin
    omega
  · intro hshadow
    refine ⟨(mem_candidates hcand).1, (mem_candidates hcand).2, ?_⟩
    intro q hq
    rcases (mem_candidates_default hdef).mp hq with hq | rfl | hq
    · have := hlow q hq
      omega
    · by_contra hmore
      refine hshadow ⟨fun q hq => hlow q (List.mem_append_left _ hq),
        fun q hq => hlow q (List.mem_append_right _ hq), ⟨pos, hin, hpos⟩, ?_⟩
      intro q hq
      have := hall q hq
      omega
    · exact hall q hq

/-- Nothing but the default position, which is locked, can show contrast. -/
theorem locksBest_of_default (hdef : coarseBest E = (0, 400))
    (hlow : ∀ q ∈ coarsePositions ++ belowDefault, E q ≤ 0) (hlock : lockedPosition E = 400)
    (hall : ∀ q ∈ aboveDefault, E q ≤ 0) (hsome : ∃ q ∈ candidates E, 0 < E q) : LocksBest E := by
  have hothers : ∀ q ∈ candidates E, q = 400 ∨ E q ≤ 0 := by
    intro q hq
    rcases (mem_candidates_default hdef).mp hq with h | rfl | h
    · exact .inr (hlow q h)
    · exact .inl rfl
    · exact .inr (hall q h)
  have h400 : 0 < E 400 := by
    obtain ⟨q, hq, hqpos⟩ := hsome
    rcases hothers q hq with rfl | hle
    · exact hqpos
    · omega
  unfold LocksBest
  rw [hlock]
  refine ⟨by decide, by decide, ?_⟩
  intro q hq
  rcases hothers q hq with rfl | hle
  · exact le_refl _
  · omega

/-- The scan of a default position that was passed over. -/
theorem locksBest_default_iff (hdef : coarseBest E = (0, 400))
    (hlow : ∀ q ∈ coarsePositions ++ belowDefault, E q ≤ 0)
    (hbelow : fineBest E belowDefault (0, 400) = (0, 400)) :
    ((∃ q ∈ candidates E, 0 < E q) → LocksBest E) ↔ ¬ DefaultShadowed E := by
  have hlock := lockedPosition_default hdef hbelow
  rcases @above_bestOf E with ⟨hzero, hall⟩ | ⟨hin, hpos, heq, hall⟩
  · rw [hzero] at hlock
    refine iff_of_true (locksBest_of_default hdef hlow hlock hall) ?_
    intro hshadow
    obtain ⟨q, hq, hqpos⟩ := hshadow.above
    have := hall q hq
    omega
  · rw [heq] at hpos hall
    have hsome : ∃ q ∈ candidates E, 0 < E q := ⟨_, (mem_candidates_default hdef).mpr (.inr (.inr hin)), hpos⟩
    rw [← locksBest_above_iff hdef hlow hlock hin hpos hall]
    exact ⟨fun h => h hsome, fun h _ => h⟩

/-- When the position that is locked is the best one, for every contrast function. -/
theorem locksBest_iff (E : Int → Int) :
    ((∃ q ∈ candidates E, 0 < E q) → LocksBest E) ↔ ¬ DefaultShadowed E := by
  by_cases hcoarse : 0 < (coarseBest E).1
  · refine iff_of_true (fun _ => locksBest_of_coarse hcoarse) ?_
    intro hshadow
    obtain ⟨hdef, -⟩ | ⟨hmem, -, heq, -⟩ := coarseBest_bestOf E
    · rw [hdef] at hcoarse
      exact lt_irrefl 0 hcoarse
    · have := hshadow.coarse _ hmem
      omega
  · obtain ⟨hdef, -⟩ := (coarseBest_bestOf E).default_of_zero hcoarse
    by_cases hbelow : 0 < (fineBest E belowDefault (0, 400)).1
    · refine iff_of_true (fun _ => locksBest_of_below hdef hbelow) ?_
      intro hshadow
      obtain ⟨hdef', -⟩ | ⟨hmem, -, heq, -⟩ := below_bestOf hdef
      · rw [hdef'] at hbelow
        exact lt_irrefl 0 hbelow
      · rcases List.mem_append.mp hmem with hmem | hmem
        · have := hshadow.coarse _ hmem
          omega
        · have := hshadow.below _ hmem
          omega
    · obtain ⟨hsame, hlow⟩ := (below_bestOf hdef).default_of_zero hbelow
      exact locksBest_default_iff hdef hlow hsame

theorem fineBest_mem (l : List Int) (best : Int × Int) : (fineBest E l best).2 ∈ best.2 :: l := by
  induction l generalizing best with
  | nil => exact List.mem_singleton.mpr rfl
  | cons pos l ih =>
    rw [fineBest]
    split
    · rcases List.mem_cons.mp (ih best) with h | h
      · rw [h]
        exact List.mem_cons_self
      · exact List.mem_cons_of_mem _ (List.mem_cons_of_mem _ h)
    · have hbetter : (better best pos (E pos)).2 = pos ∨ (better best pos (E pos)).2 = best.2 := by
        unfold better
        split
        · exact .inl rfl
        · exact .inr rfl
      rcases List.mem_cons.mp (ih (better best pos (E pos))) with h | h
      · rw [h]
        rcases hbetter with hb | hb
        · rw [hb]
          exact List.mem_cons_of_mem _ List.mem_cons_self
        · rw [hb]
          exact List.mem_cons_self
      · exact List.mem_cons_of_mem _ (List.mem_cons_of_mem _ h)

theorem lockedPosition_range (E : Int → Int) : 140 ≤ lockedPosition E ∧ lockedPosition E ≤ 640 := by
  rcases List.mem_cons.mp (fineBest_mem (finePositions (coarseBest E).2) (coarseBest E)) with h | h
  · rw [lockedPosition, h]
    obtain ⟨hdef, -⟩ | ⟨hmem, -, -, -⟩ := coarseBest_bestOf E
    · rw [hdef]
      decide
    · exact mem_coarsePositions hmem
  · exact mem_finePositions h

end

/-- The scan ends with `setFocus` of a position that is the best of the candidates, if one
of them shows contrast. -/
def LocksAtBest (plat : Platform) (env : KernelEnv) (n : Nat) (p : CameraPipeline)
    (E : Int → Int) : Prop :=
  (∃ q ∈ candidates E, 0 < E q) → ∃ pos,
    lastCall plat env n p = some (.setControl .focusAbsolute pos) ∧
      140 ≤ pos ∧ pos ≤ 640 ∧ ∀ q ∈ candidates E, E q ≤ E pos

/-- **When the scan locks the best position**, for every contrast function that its
measurements show: unless the default position is shadowed. -/
theorem afScan_locks_iff (plat : Platform) (env : KernelEnv) (n : Nat) (p : CameraPipeline)
    (E : Int → Int) (hstream : p.mState = .streaming) (hsteady : Steady plat env n p E) :
    LocksAtBest plat env n p E ↔ ¬ DefaultShadowed E := by
  have hrange := lockedPosition_range E
  have hlast := lastCall_steady hstream hsteady (by omega) (by omega)
  rw [← locksBest_iff E]
  refine imp_congr_right fun _ => ?_
  constructor
  · rintro ⟨pos, hpos, h1, h2, hall⟩
    rw [hlast] at hpos
    cases hpos
    exact ⟨h1, h2, hall⟩
  · rintro ⟨h1, h2, hall⟩
    exact ⟨_, hlast, h1, h2, hall⟩

/-! ### A scan in which one frame arrives -/

/-- A streaming pipeline for frames of 4 by 3 samples, without automatic exposure. -/
def scanning : CameraPipeline :=
  { CameraPipeline.new 0 ⟨4, 3, 0, 3, 0, 0, false, true, 0, fun _ => 1, 1, false, false, 1 / 2, 1⟩
      fun _ => 0 with
    mState := .streaming
    mStreaming := true
    mDemosaic := some ⟨⟨4, 3, 3, 0, 0, 0⟩, true, some fun _ => 0, 92⟩
    mColorConv := some ⟨4, 3, true⟩
    mBuffers := fun _ => ⟨some 4096, 24, true⟩
    mBufferCount := 1
    mRgbBuffer := some fun _ => 0
    mRgbBufferSize := 36 }

/-- A gamma curve that changes nothing. -/
def linearPlatform : Platform := ⟨fun _ => 0, fun _ i => BitVec.ofNat 8 i⟩

/-- The camera times out at every position but 410, where it sees one sample of light. -/
def sees410 : KernelEnv := fun n o =>
  match o with
  | .poll _ => if n = 33 then .ready true else .timeout
  | .dequeueBuf _ => .ok ⟨0, 24, fun i => if i = 12 then 16 else 0⟩
  | o => kernelGrants n o

theorem afScan_locks_410 :
    LocksAtBest linearPlatform sees410 0 scanning fun q => if q = 410 then 2 else -1 := by
  have hsteady : Steady linearPlatform sees410 0 scanning fun q => if q = 410 then 2 else -1 := by
    unfold Steady
    decide +kernel
  refine (afScan_locks_iff _ _ _ _ _ rfl hsteady).mpr ?_
  intro hshadow
  exact absurd (hshadow.default 410 (by decide)) (by decide)

/-- With more contrast at 400 than at 410 and none elsewhere the scan still ends at 410. -/
theorem default_position_passed_over : ¬ ∀ (plat : Platform) (env : KernelEnv) (n : Nat)
    (p : CameraPipeline) (E : Int → Int), p.mState = .streaming → Steady plat env n p E →
    LocksAtBest plat env n p E := by
  intro h
  let E : Int → Int := fun q => if q = 400 then 3 else if q = 410 then 2 else -1
  have hsteady : Steady linearPlatform sees410 0 scanning E := by
    unfold Steady
    decide +kernel
  have hlocked : lockedPosition E = 410 := by decide +kernel
  have hlast := lastCall_steady rfl hsteady (by rw [hlocked]; decide) (by rw [hlocked]; decide)
  obtain ⟨pos, hpos, -, -, hall⟩ :=
    h linearPlatform sees410 0 scanning E rfl hsteady ⟨400, by decide +kernel, by decide⟩
  rw [hlast, hlocked] at hpos
  cases hpos
  exact absurd (hall 400 (by decide +kernel)) (by decide)

end MochaHal.Camera.CameraPipeline
