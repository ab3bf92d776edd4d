import MochaHal.Lib.Monitor
import MochaHal.Camera.Configure

/-! Mappings and their release.  A monitor keeps the mappings that `mmap` gave and
`munmap` has not taken back, and allows `munmap` only for one of those.  The slots
below `mBufferCount` record exactly these mappings in every run in which no buffers
are granted while older ones are recorded, and `close` leaves none
(`mappings_balanced`). -/

namespace MochaHal.Camera
open MochaHal.Prog MochaHal.Monitor MochaHal.Reach MochaHal.Demosaic

/-! ## The monitor -/

def mappings : Monitor KernelOp KernelOp.Ans (List (Nat × BitVec 32)) where
  allowed out o := match o with
    | .munmap a length => (a, length) ∈ out
    | _ => True
  after out o a := match o, a with
    | .mmap length _, some a => out ++ [(a, length)]
    | .munmap a length, _ => out.erase (a, length)
    | _, _ => out

theorem NoMapping.silent {o : KernelOp} (h : NoMapping o) : mappings.Silent o := by
  intro out
  cases o with
  | mmap _ _ => exact h.elim
  | munmap _ _ => exact h.elim
  | _ => exact ⟨trivial, fun _ => rfl⟩

namespace CameraPipeline

/-! ## What the slots record -/

/-- The mapping of a slot in `drop`. -/
def entry (drop : V4l2Buffer → Bool) (b : V4l2Buffer) : List (Nat × BitVec 32) :=
  if drop b then (b.start.map fun a => (a, b.length)).toList else []

/-- The mappings of the slots `i, ..., i+n-1` that are in `drop`. -/
def recorded (drop : V4l2Buffer → Bool) (slots : Nat → V4l2Buffer) (n i : Nat) :
    List (Nat × BitVec 32) :=
  (List.range' i n).flatMap fun j => entry drop (slots j)

theorem recorded_cons (drop : V4l2Buffer → Bool) (slots : Nat → V4l2Buffer) (n i : Nat) :
    recorded drop slots (n + 1) i = entry drop (slots i) ++ recorded drop slots n (i + 1) := by
  simp [recorded, List.range'_succ]

theorem recorded_concat (drop : V4l2Buffer → Bool) (slots : Nat → V4l2Buffer) (n i : Nat) :
    recorded drop slots (n + 1) i = recorded drop slots n i ++ entry drop (slots (i + n)) := by
  simp [recorded, List.range'_concat]

theorem recorded_congr {drop drop' : V4l2Buffer → Bool} {slots slots' : Nat → V4l2Buffer} {n i : Nat}
    (h : ∀ j, i ≤ j → j < i + n → entry drop (slots j) = entry drop' (slots' j)) :
    recorded drop slots n i = recorded drop' slots' n i := by
  unfold recorded
  apply List.flatMap_congr
  intro j hj
  rw [List.mem_range'_1] at hj
  exact h j hj.1 hj.2

section
variable {p : CameraPipeline} {out rest : List (Nat × BitVec 32)}

/-- `munmapStart` takes back the first mapping. -/
theorem munmapStart_balance (b : V4l2Buffer) :
    Obeys mappings (fun φ r => φ = rest ∧ r.2 = p) (entry (fun _ => true) b ++ rest) (munmapStart b p) := by
  unfold munmapStart entry
  cases b.start with
  | none => exact ⟨rfl, rfl⟩
  | some a =>
    apply obeys_ask
    · exact List.mem_cons_self
    · intro _
      exact ⟨List.erase_cons_head .., rfl⟩

theorem unmapSlots_balance (drop : V4l2Buffer → Bool) (n i : Nat) :
    Obeys mappings (fun φ _ => φ = rest) (recorded drop p.mBuffers n i ++ rest)
      (unmapSlots drop n i p) := by
  induction n generalizing i p with
  | zero => exact rfl
  | succ n ih =>
    unfold unmapSlots
    apply obeys_get
    apply obeys_stateBind
    rw [recorded_cons, List.append_assoc]
    -- whatever happens to slot `i`, the later slots are as before
    have hrest (b : V4l2Buffer) : Obeys mappings (fun φ _ => φ = rest)
        (recorded drop p.mBuffers n (i + 1) ++ rest)
        (unmapSlots drop n (i + 1) { p with mBuffers := Function.update p.mBuffers i b }) := by
      have hslots : recorded drop p.mBuffers n (i + 1) =
          recorded drop (Function.update p.mBuffers i b) n (i + 1) :=
        recorded_congr fun j hj _ => by rw [Function.update_of_ne (by omega)]
      rw [hslots]
      exact ih (p := { p with mBuffers := Function.update p.mBuffers i b }) (i + 1)
    apply obeys_ite
    · intro hdrop
      apply obeys_stateBind
      have hentry : entry drop (p.mBuffers i) = entry (fun _ => true) (p.mBuffers i) := by
        simp [entry, hdrop]
      rw [hentry]
      apply (munmapStart_balance (p.mBuffers i)).mono
      rintro φ ⟨_, q⟩ ⟨rfl, rfl⟩
      exact hrest _
    · intro hdrop
      have hentry : entry drop (p.mBuffers i) = [] := by simp [entry, hdrop]
      have := hrest (p.mBuffers i)
      rw [Function.update_eq_self] at this
      rw [hentry]
      exact this

end

/-- The slots below `n` are mapped. -/
def AllMapped (slots : Nat → V4l2Buffer) (n : Nat) : Prop :=
  ∀ j < n, (slots j).start.isSome ∧ (slots j).allocated = true

/-- The outstanding mappings are those that the slots below `mBufferCount` record. -/
structure Accounted (out : List (Nat × BitVec 32)) (p : CameraPipeline) : Prop where
  recorded : out = recorded (fun _ => true) p.mBuffers p.mBufferCount.toNat 0
  mapped : AllMapped p.mBuffers p.mBufferCount.toNat

theorem accounted_none {p : CameraPipeline} (h : p.mBufferCount = 0) : Accounted [] p := by
  constructor
  · simp [CameraPipeline.recorded, h]
  · intro j hj
    simp [h] at hj

/-- `Accounted` reads the slots and their count. -/
theorem Accounted.congr {out : List (Nat × BitVec 32)} {p q : CameraPipeline} (h : Accounted out p)
    (hslots : q.mBuffers = p.mBuffers) (hcount : q.mBufferCount = p.mBufferCount) : Accounted out q := by
  constructor
  · rw [hslots, hcount]
    exact h.recorded
  · rw [hslots, hcount]
    exact h.mapped

section
variable {p : CameraPipeline} {out : List (Nat × BitVec 32)}

theorem unmapAll_balance (i : Nat) : Obeys mappings (fun φ r => φ = [] ∧ r.2.mBufferCount = 0)
    (recorded (fun _ => true) p.mBuffers i 0) (unmapAll i p) := by
  apply obeys_stateBind
  have hloop : Obeys mappings (fun φ _ => φ = []) (recorded (fun _ => true) p.mBuffers i 0 ++ [])
      (unmapSlots (fun _ => true) i 0 p) := unmapSlots_balance _ i 0
  rw [List.append_nil] at hloop
  exact hloop.mono fun φ r hr => ⟨hr, rfl⟩

/-- Slots that are not written keep what they record. -/
theorem recorded_update (slots : Nat → V4l2Buffer) (i : Nat) (b : V4l2Buffer) :
    recorded (fun _ => true) (Function.update slots i b) i 0 = recorded (fun _ => true) slots i 0 :=
  recorded_congr fun j _ hj => by rw [Function.update_of_ne (by omega)]

theorem obeys_setBuffer {β : Type} {Q : List (Nat × BitVec 32) → β × CameraPipeline → Prop} {i : Nat}
    {f : V4l2Buffer → V4l2Buffer} {g : Unit → Pipe β}
    (h : ∀ q, q.mBuffers = Function.update p.mBuffers i (f (p.mBuffers i)) →
      q.mBufferCount = p.mBufferCount → Obeys mappings Q out (g () q)) :
    Obeys mappings Q out ((setBuffer i f >>= g) p) := h _ rfl rfl

/-- The outcome of the mapping loop: nothing is left, or every slot is mapped. -/
def MapsAll (count : Int) (n : Nat) (φ : List (Nat × BitVec 32)) (r : Int × CameraPipeline) : Prop :=
  r.1 ≠ 0 ∧ φ = [] ∧ r.2.mBufferCount = 0 ∨
    r.2.mBufferCount = count ∧ φ = recorded (fun _ => true) r.2.mBuffers n 0 ∧ AllMapped r.2.mBuffers n

/-- Giving up behind slot `i`. -/
theorem unmapAll_gives_up (i : Nat) {n : Nat} {count ret : Int} (hret : ret ≠ 0) :
    Obeys mappings (MapsAll count n) (recorded (fun _ => true) p.mBuffers i 0)
      ((unmapAll i >>= fun _ => pure ret) p) := by
  apply obeys_stateBind
  apply (unmapAll_balance i).mono
  rintro φ ⟨_, q⟩ ⟨rfl, hcount⟩
  exact .inl ⟨hret, rfl, hcount⟩

theorem AllMapped.update {slots : Nat → V4l2Buffer} {i : Nat} (h : AllMapped slots i) {b : V4l2Buffer}
    (hb : b.start.isSome ∧ b.allocated = true) : AllMapped (Function.update slots i b) (i + 1) := by
  intro j hj
  by_cases heq : j = i
  · rw [heq, Function.update_self]
    exact hb
  · rw [Function.update_of_ne heq]
    exact h j (by omega)

theorem mapBuffers_balance (n i : Nat) (hmapped : AllMapped p.mBuffers i) :
    Obeys mappings (MapsAll p.mBufferCount (i + n)) (recorded (fun _ => true) p.mBuffers i 0)
      (mapBuffers n i p) := by
  induction n generalizing i p with
  | zero => exact .inr ⟨rfl, rfl, hmapped⟩
  | succ n ih =>
    apply obeys_ask trivial
    intro r
    cases r with
    | error e =>
      have hpos := e.property
      exact unmapAll_gives_up i (by omega)
    | ok lo =>
      obtain ⟨length, offset⟩ := lo
      apply obeys_setBuffer
      intro q hq hcount
      apply obeys_ask trivial
      intro a
      cases a with
      | none =>
        apply obeys_setBuffer
        intro q' hq' _
        have hsame : recorded (fun _ => true) p.mBuffers i 0 = recorded (fun _ => true) q'.mBuffers i 0 := by
          rw [hq', recorded_update, hq, recorded_update]
        show Obeys mappings _ (recorded (fun _ => true) p.mBuffers i 0) _
        rw [hsame]
        exact unmapAll_gives_up i (by decide)
      | some a =>
        apply obeys_setBuffer
        intro q' hq' hcount'
        have hslots : q'.mBuffers = Function.update p.mBuffers i ⟨some a, length, true⟩ := by
          rw [hq', hq, Function.update_idem, Function.update_self]
        have hsame : recorded (fun _ => true) p.mBuffers i 0 ++ [(a, length)] =
            recorded (fun _ => true) q'.mBuffers (i + 1) 0 := by
          rw [recorded_concat, Nat.zero_add, hslots, Function.update_self, recorded_update]
          rfl
        show Obeys mappings _ (recorded (fun _ => true) p.mBuffers i 0 ++ [(a, length)]) _
        rw [hsame, ← hcount, ← hcount', show i + (n + 1) = i + 1 + n by omega]
        apply ih (i + 1)
        rw [hslots]
        exact hmapped.update ⟨rfl, rfl⟩

end

/-! ## The methods -/

section
variable {plat : Platform} {p : CameraPipeline} {out : List (Nat × BitVec 32)}

def StaysAccounted {α : Type} (φ : List (Nat × BitVec 32)) (r : α × CameraPipeline) : Prop :=
  Accounted φ r.2

/-- The fields that `Accounted` reads. -/
def slotView (p : CameraPipeline) : (Nat → V4l2Buffer) × Int := (p.mBuffers, p.mBufferCount)

theorem Accounted.of_slotView {q : CameraPipeline} (h : Accounted out p)
    (hview : slotView q = slotView p) : Accounted out q :=
  h.congr (congrArg Prod.fst hview) (congrArg Prod.snd hview)

/-- Methods that map nothing and leave the slots alone. -/
theorem quiet_balance {α : Type} {m : Pipe α} (h : Accounted out p) (hm : Confined NoMapping slotView m) :
    Obeys mappings StaysAccounted out (m p) := by
  apply obeys_silent
  · exact hm.only.mono (fun _ => NoMapping.silent) p
  · exact (hm.keeps p).mono fun r hr => h.of_slotView hr

/-- `configure` on a pipeline without buffers. -/
theorem configure_balance (hcount : p.mBufferCount = 0) (config : PipelineConfig) :
    Obeys mappings StaysAccounted [] (configure plat config p) := by
  apply obeys_get
  apply obeys_ite
  · intro _
    exact accounted_none hcount
  intro _
  apply obeys_modify
  apply obeys_get
  apply obeys_ite
  · intro _
    exact accounted_none hcount
  intro _
  apply obeys_ask trivial
  intro fmt
  cases fmt with
  | error e => exact accounted_none hcount
  | ok _ =>
    apply obeys_ask trivial
    intro req
    cases req with
    | error e => exact accounted_none hcount
    | ok count =>
      apply obeys_ite
      · intro _
        exact accounted_none hcount
      intro _
      apply obeys_modify
      apply obeys_stateBind
      apply (mapBuffers_balance count.toInt.toNat 0 fun j hj => absurd hj (by omega)).mono
      rintro φ ⟨ret, q⟩ (⟨hne, rfl, hzero⟩ | ⟨hgot, hout, hmapped⟩)
      · apply obeys_ite
        · intro _
          exact accounted_none hzero
        · exact fun h0 => absurd hne h0
      · have hq : Accounted φ q := by
          have hn : q.mBufferCount = count.toInt := hgot
          rw [Nat.zero_add] at hout hmapped
          exact ⟨by rw [hn]; exact hout, by rw [hn]; exact hmapped⟩
        apply obeys_ite
        · exact fun _ => hq
        · intro _
          apply quiet_balance hq
          constructor
          · exact (finishConfigure_bufferless plat config).mono fun _ => Bufferless.noMapping
          · exact (finishConfigure_keeps config).map fun v => (v.2.2.1, v.2.2.2)

/-- A loop over the slots below `mBufferCount` that drops every mapped one. -/
theorem dropAll_balance (h : Accounted out p) {drop : V4l2Buffer → Bool}
    (hdrop : ∀ b : V4l2Buffer, b.start.isSome → b.allocated = true → drop b = true) :
    Obeys mappings (fun φ _ => φ = []) out (unmapSlots drop p.mBufferCount.toNat 0 p) := by
  have hsame : out = recorded drop p.mBuffers p.mBufferCount.toNat 0 ++ [] := by
    rw [h.recorded, List.append_nil]
    apply recorded_congr
    intro j _ hj
    obtain ⟨hstart, halloc⟩ := h.mapped j (by omega)
    simp [entry, hdrop _ hstart halloc]
  rw [hsame]
  exact unmapSlots_balance drop _ 0

theorem stopStreaming_balance (h : Accounted out p) : Obeys mappings StaysAccounted out (stopStreaming p) := by
  apply obeys_get
  apply obeys_ite
  · exact fun _ => h
  intro _
  apply obeys_ask trivial
  intro _
  apply obeys_get
  apply obeys_stateBind
  apply (dropAll_balance h fun b hstart _ => hstart).mono
  rintro φ r rfl
  exact accounted_none rfl

/-- `close` leaves no mapping. -/
theorem close_balance (h : Accounted out p) :
    Obeys mappings (fun φ r => Accounted φ r.2 ∧ φ = []) out (close p) := by
  apply obeys_stateBind
  apply (stopStreaming_balance h).mono
  rintro φ ⟨_, q⟩ hq
  have hq : Accounted φ q := hq
  apply obeys_get
  apply obeys_stateBind
  have hdrop (b : V4l2Buffer) (hstart : b.start.isSome) (halloc : b.allocated = true) :
      (b.start.isSome && b.allocated) = true := by simp [hstart, halloc]
  apply (dropAll_balance hq hdrop).mono
  rintro φ ⟨_, t⟩ rfl
  apply obeys_modify
  have hfree : Only NoMapping (do
      onlyIf (← get).mRgbBuffer.isSome
        (modify fun p => { p with mRgbBuffer := none, mRgbBufferSize := 0 } : Pipe Unit)
      onlyIf (0 ≤ (← get).mFd) closeFd
      modify fun p => { p with mState := .closed }
      return (0 : Int)) := by
    refine .bind only_get fun _ => .bind (onlyIf_only (only_modify _)) fun _ => ?_
    refine .bind only_get fun _ => .bind (onlyIf_only ?_) fun _ => ?_
    · exact .bind (only_ask trivial) fun _ => only_modify _
    · exact .bind (only_modify _) fun _ => only_pure _
  apply obeys_silent
  · exact hfree.mono (fun _ => NoMapping.silent) _
  · exact (closeTail_keeps _).mono fun r hr => ⟨accounted_none (congrArg (fun p => p.mBufferCount) hr), rfl⟩

end

/-- A refused `configure` makes no mapping call. -/
theorem configure_refused_calls {plat : Platform} {env : KernelEnv} {p : CameraPipeline}
    {config : PipelineConfig} (h : p.mState = .streaming ∨ granted env p config = none) :
    ∀ c ∈ calls env 0 (configure plat config p), NoMapping c.1 := by
  unfold configure
  show ∀ c ∈ calls env 0 ((if p.mState = .streaming then _ else _ : Pipe Int) p), _
  by_cases hs : p.mState = .streaming
  · rw [if_pos hs]
    exact fun c hc => by cases hc
  · have hg := h.resolve_left hs
    rw [if_neg hs]
    show ∀ c ∈ calls env 0 ((if p.mFd < 0 then _ else _ : Pipe Int) { p with mConfig := config }), _
    by_cases hfd : p.mFd < 0
    · rw [if_pos hfd]
      exact fun c hc => by cases hc
    · rw [if_neg hfd, calls_askBind]
      rw [granted, if_neg hfd] at hg
      cases hfmt : env 0 (.setFormat config.width config.height config.pixelFormat) with
      | error e =>
        intro c hc
        obtain rfl := List.mem_singleton.mp hc
        trivial
      | ok _ =>
        dsimp only
        rw [calls_askBind]
        rw [hfmt] at hg
        dsimp only at hg
        cases hreq : env 1 (.requestBuffers 2 .mmap) with
        | error e =>
          intro c hc
          rcases List.mem_cons.mp hc with rfl | hc
          · trivial
          · obtain rfl := List.mem_singleton.mp hc
            trivial
        | ok count =>
          rw [hreq] at hg
          dsimp only at hg ⊢
          by_cases hn : count < 2
          · rw [if_pos hn]
            intro c hc
            rcases List.mem_cons.mp hc with rfl | hc
            · trivial
            · obtain rfl := List.mem_singleton.mp hc
              trivial
          · rw [if_neg hn] at hg
            cases hg

end CameraPipeline

/-! ## Runs -/

/-- The pipeline and the mappings that are outstanding. -/
structure Ledger where
  pipeline : CameraPipeline
  outstanding : List (Nat × BitVec 32)

namespace Ledger
open CameraPipeline

def trace (plat : Platform) (s : Ledger) (step : PipelineCall × KernelEnv) : List ((o : KernelOp) × o.Ans) :=
  calls step.2 0 (exec plat step.1 s.pipeline)

def next (plat : Platform) (s : Ledger) (step : PipelineCall × KernelEnv) : Ledger :=
  ⟨CameraPipeline.next plat s.pipeline step, mappings.phase s.outstanding (s.trace plat step)⟩

/-- The step unmaps only what is mapped, and when it closes the pipeline nothing stays mapped. -/
def Settles (plat : Platform) (s : Ledger) (step : PipelineCall × KernelEnv) : Prop :=
  mappings.Accepts s.outstanding (s.trace plat step) ∧
    (step.1 = .close → (s.next plat step).outstanding = [])

/-- `configure` is granted buffers, at most the four that it has slots for, only while none are
recorded. -/
def MapsAfresh (s : Ledger) (step : PipelineCall × KernelEnv) : Prop :=
  ∀ config, step.1 = .configure config → s.pipeline.mState ≠ .streaming →
    ∀ count ∈ granted step.2 s.pipeline config, s.pipeline.mBufferCount = 0 ∧ count ≤ 4

def Reached (plat : Platform) (ok : Ledger → PipelineCall × KernelEnv → Prop) : Ledger → Prop :=
  Reachable (fun s => ∃ id config lut, s = ⟨.new id config lut, []⟩) (fun s i s' => s' = s.next plat i) ok

section
variable {plat : Platform} {s : Ledger}

/-- What a step has to show. -/
def Keeps (plat : Platform) (s : Ledger) (step : PipelineCall × KernelEnv) : Prop :=
  s.Settles plat step ∧ Accounted (s.next plat step).outstanding (s.next plat step).pipeline

theorem keeps_of_obeys {step : PipelineCall × KernelEnv}
    (h : Obeys mappings (fun φ r => Accounted φ r.2 ∧ (step.1 = .close → φ = [])) s.outstanding
      (exec plat step.1 s.pipeline)) : Keeps plat s step := by
  have hend : Accounted (s.next plat step).outstanding (s.next plat step).pipeline ∧
      (step.1 = .close → (s.next plat step).outstanding = []) := obeys_run h step.2 0
  exact ⟨⟨obeys_accepts h step.2 0, hend.2⟩, hend.1⟩

/-- Methods other than `configure` and `close`. -/
theorem keeps_of_kept {α : Type} {m : Pipe α} {step : PipelineCall × KernelEnv}
    (hexec : exec plat step.1 = (m >>= fun _ => pure ())) (hclose : step.1 ≠ .close)
    (h : Obeys mappings StaysAccounted s.outstanding (m s.pipeline)) : Keeps plat s step := by
  apply keeps_of_obeys
  rw [hexec]
  apply obeys_stateBind
  exact h.mono fun φ r hr => ⟨hr, fun hc => absurd hc hclose⟩

/-- `configure` on recorded buffers is refused. -/
theorem configure_keeps {config : PipelineConfig} {env : KernelEnv} (hs : Accounted s.outstanding s.pipeline)
    (hok : s.MapsAfresh (.configure config, env)) : Keeps plat s (.configure config, env) := by
  by_cases hcount : s.pipeline.mBufferCount = 0
  · have hnone : s.outstanding = [] := by rw [hs.recorded, hcount]; rfl
    apply keeps_of_kept rfl (by simp)
    rw [hnone]
    exact configure_balance hcount config
  · have hrefused : s.pipeline.mState = .streaming ∨ granted env s.pipeline config = none := by
      by_cases hstream : s.pipeline.mState = .streaming
      · exact .inl hstream
      · right
        cases hg : granted env s.pipeline config with
        | none => rfl
        | some count => exact absurd (hok config rfl hstream count hg).1 hcount
    have htrace : s.trace plat (.configure config, env) =
        calls env 0 (configure plat config s.pipeline) := by
      show calls env 0 ((configure plat config >>= fun _ => pure ()) s.pipeline) = _
      rw [show (configure plat config >>= fun _ => (pure () : Pipe Unit)) s.pipeline =
        (configure plat config s.pipeline >>= fun r => pure ((), r.2)) from rfl, calls_bind]
      exact List.append_nil _
    have hsilent : ∀ c ∈ s.trace plat (.configure config, env), mappings.Silent c.1 := by
      rw [htrace]
      exact fun c hc => (configure_refused_calls hrefused c hc).silent
    obtain ⟨haccepts, hphase⟩ := silent_trace (φ := s.outstanding) hsilent
    refine ⟨⟨haccepts, fun hc => by cases hc⟩, ?_⟩
    show Accounted (mappings.phase s.outstanding _) (CameraPipeline.next plat s.pipeline _)
    rw [hphase, next_configure]
    have hexit : Exit plat env s.pipeline config (run env 0 (configure plat config s.pipeline)) := configure_exit
    generalize run env 0 (configure plat config s.pipeline) = r at hexit
    cases hexit with
    | busy hstream => exact hs
    | refused hstream hg he => exact hs.congr rfl rfl
    | unmapped hstream hg => simp [hstream, hg] at hrefused
    | noIsp hstream hg => simp [hstream, hg] at hrefused
    | raw hstream hg => simp [hstream, hg] at hrefused
    | done hstream hg => simp [hstream, hg] at hrefused

/-- One case per method. -/
theorem step_keeps (hs : Accounted s.outstanding s.pipeline) {step : PipelineCall × KernelEnv}
    (hok : s.MapsAfresh step) : Keeps plat s step := by
  have hsetup {α : Type} {m : Pipe α} (hm : Confined NoMapping setup m) : Confined NoMapping slotView m :=
    hm.map slotView
  have hplain {α : Type} {m : Pipe α} (hm : Confined Bufferless setup m) : Confined NoMapping slotView m :=
    hsetup (hm.mono fun _ => Bufferless.noMapping)
  obtain ⟨c, env⟩ := step
  cases c with
  | openDev cameraId =>
    apply keeps_of_kept rfl (by simp)
    exact quiet_balance hs ((openDev_confined cameraId).map slotView)
  | configure config => exact configure_keeps hs hok
  | startStreaming =>
    apply keeps_of_kept rfl (by simp)
    exact quiet_balance hs (startStreaming_confined.map slotView)
  | stopStreaming => exact keeps_of_kept rfl (by simp) (stopStreaming_balance hs)
  | captureFrame dst fmt =>
    apply keeps_of_kept rfl (by simp)
    exact quiet_balance hs (hsetup (captureFrame_confined plat dst fmt))
  | captureForAf =>
    apply keeps_of_kept rfl (by simp)
    exact quiet_balance hs (hsetup (captureForAf_confined plat))
  | startAfScan =>
    apply keeps_of_obeys
    apply (quiet_balance hs (hsetup (startAfScan_confined plat))).mono
    exact fun φ r hr => ⟨hr, fun hc => by cases hc⟩
  | cancelAf =>
    apply keeps_of_obeys
    apply (quiet_balance hs (hplain cancelAf_confined)).mono
    exact fun φ r hr => ⟨hr, fun hc => by cases hc⟩
  | getExposure =>
    apply keeps_of_kept rfl (by simp)
    exact quiet_balance hs (hplain getExposure_confined)
  | getGain =>
    apply keeps_of_kept rfl (by simp)
    exact quiet_balance hs (hplain getGain_confined)
  | close =>
    apply keeps_of_obeys
    apply obeys_stateBind
    exact (close_balance hs).mono fun φ r hr => ⟨hr.1, fun _ => hr.2⟩

theorem reached_accounted (h : Reached plat MapsAfresh s) : Accounted s.outstanding s.pipeline := by
  refine h.invariant (P := fun s => Accounted s.outstanding s.pipeline) ?_ ?_
  · rintro s ⟨id, config, lut, rfl⟩
    exact accounted_none rfl
  · rintro s step s' hs hok rfl
    exact (step_keeps hs hok).2

end

/-- **Mappings and releases balance.** -/
theorem mappings_balanced (plat : Platform) (s : Ledger) (step : PipelineCall × KernelEnv)
    (h : Reached plat MapsAfresh s) (hok : s.MapsAfresh step) : s.Settles plat step :=
  (step_keeps (reached_accounted h) hok).1

/-- The kernel of `kernelGrants`, which maps each buffer at an address of its own from `base` on. -/
def mapsFrom (base : Nat) : KernelEnv := fun n o =>
  match o with
  | .mmap _ _ => some (base + 4096 * n)
  | o => kernelGrants n o

/-- The ledger after `open` and `configure`. -/
def configuredLedger : Ledger :=
  (Ledger.next flatPlatform ⟨.new 0 smallConfig fun _ => 0, []⟩ (.openDev 0, kernelGrants)).next
    flatPlatform (.configure smallConfig, mapsFrom 0x10000)

theorem configuredLedger_reached {ok : Ledger → PipelineCall × KernelEnv → Prop}
    (hopen : ∀ s id env, ok s (.openDev id, env))
    (hconf : ok (Ledger.next flatPlatform ⟨.new 0 smallConfig fun _ => 0, []⟩ (.openDev 0, kernelGrants))
      (.configure smallConfig, mapsFrom 0x10000)) : Reached flatPlatform ok configuredLedger :=
  .next (.next (.start ⟨0, smallConfig, fun _ => 0, rfl⟩) (hopen _ _ _) rfl) hconf rfl

theorem mappings_balanced_close : configuredLedger.outstanding = [(0x13000, 16), (0x15000, 16)] ∧
    configuredLedger.Settles flatPlatform (.close, kernelGrants) := by
  refine ⟨by decide +kernel, mappings_balanced flatPlatform _ _ (configuredLedger_reached ?_ ?_) ?_⟩
  · rintro s id env config h
    cases h
  · rintro config h - count hc
    cases h
    obtain rfl : 2 = count := Option.some.inj hc
    exact ⟨rfl, by decide⟩
  · rintro config h
    cases h

/-- A second configuration overwrites the slots of the first, whose buffers stay mapped. -/
theorem reconfigured_leaks : ¬ ∀ (plat : Platform) (s : Ledger) (step : PipelineCall × KernelEnv),
    Reached plat (fun _ _ => True) s → s.Settles plat step := by
  intro h
  have hreached : Reached flatPlatform (fun _ _ => True)
      (configuredLedger.next flatPlatform (.configure smallConfig, mapsFrom 0x20000)) :=
    .next (configuredLedger_reached (fun _ _ _ => trivial) trivial) trivial rfl
  have hclosed := (h flatPlatform _ (.close, kernelGrants) hreached).2 rfl
  revert hclosed
  decide +kernel

end Ledger

end MochaHal.Camera
