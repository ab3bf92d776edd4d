import MochaHal.Lib.Monitor
import MochaHal.Camera.Streaming

/-! The V4L2 session behind the capture pipeline.  A monitor follows the buffer calls
of the methods and keeps what the driver has: the buffers that the latest REQBUFS on
the open descriptor granted, the ones it owns, and the ones taken out and not yet
given back.

`session_discipline` says that the pipeline keeps to the protocol in every run in which
REQBUFS grants at most four buffers, a stream is started only on buffers that are granted
and free, frames are captured only while the driver's buffers are known to the pipeline,
and autofocus does not capture: it asks for `V4L2_MEMORY_USERPTR` buffers where `configure`
requested mapped ones. -/

namespace MochaHal.Camera
open MochaHal.Prog MochaHal.Monitor MochaHal.Reach MochaHal.Demosaic

/-! ## The driver -/

structure Driver where
  /-- the count and the memory of the latest REQBUFS that succeeded -/
  granted : Option (Nat × Memory)
  /-- the indices of the buffers in the driver's queues -/
  owned : List Nat
  /-- the indices dequeued and not queued again -/
  taken : List Nat
  deriving DecidableEq, Repr

namespace Driver

/-- A descriptor just opened, or none. -/
def fresh : Driver := ⟨none, [], []⟩

/-- The buffer is one of those granted, of this memory. -/
def Granted (d : Driver) (index : Nat) (memory : Memory) : Prop :=
  ∃ n, d.granted = some (n, memory) ∧ index < n

/-- How many buffers were granted. -/
def count (d : Driver) : Nat := d.granted.elim 0 Prod.fst

/-- The protocol: what a buffer call may carry. -/
def Allowed (d : Driver) : KernelOp → Prop
  | .queryBuf index memory => d.Granted index memory
  | .queueBuf index memory => d.Granted index memory ∧ index ∉ d.owned
  | .dequeueBuf memory => ∃ n, d.granted = some (n, memory)
  | _ => True

/-- The driver's own promise: a buffer it returns was one of its buffers. -/
def promise (d : Driver) (o : KernelOp) (a : o.Ans) : Bool :=
  match o, a with
  | .dequeueBuf _, .ok buf => decide (buf.index.toNat ∈ d.owned)
  | _, _ => true

/-- What a call and its answer do to the driver.  REQBUFS and STREAMOFF give every buffer
back, and a failed QBUF is not the pipeline's fault. -/
def after (d : Driver) (o : KernelOp) (a : o.Ans) : Driver :=
  match o, a with
  | .openDevice _, .ok _ => fresh
  | .closeDevice, _ => fresh
  | .requestBuffers _ memory, .ok count => { d with granted := some (count.toNat, memory), owned := [] }
  | .queueBuf index _, .ok _ =>
    { d with owned := index :: d.owned, taken := d.taken.filter (· ≠ index) }
  | .queueBuf index _, .error _ => { d with taken := d.taken.filter (· ≠ index) }
  | .dequeueBuf _, .ok buf =>
    { d with owned := d.owned.filter (· ≠ buf.index.toNat), taken := buf.index.toNat :: d.taken }
  | .streamOff, .ok _ => { d with owned := [] }
  | _, _ => d

end Driver

/-- The session; `none` once the driver has broken its promise. -/
def session : Monitor KernelOp KernelOp.Ans (Option Driver) where
  allowed φ o := ∀ d, φ = some d → d.Allowed o
  after φ o a := φ.bind fun d => if d.promise o a then some (d.after o a) else none

/-- Calls that are not about buffers. -/
def Aside : KernelOp → Prop
  | .openDevice _ => False
  | .closeDevice => False
  | .requestBuffers _ _ => False
  | .queryBuf _ _ => False
  | .queueBuf _ _ => False
  | .dequeueBuf _ => False
  | .streamOff => False
  | _ => True

theorem Aside.silent {o : KernelOp} (h : Aside o) : session.Silent o := by
  intro φ
  cases φ with
  | none => exact ⟨fun d hd => (Option.some_ne_none d hd.symm).elim, fun _ => rfl⟩
  | some d =>
    cases o with
    | openDevice _ => exact h.elim
    | closeDevice => exact h.elim
    | requestBuffers _ _ => exact h.elim
    | queryBuf _ _ => exact h.elim
    | queueBuf _ _ => exact h.elim
    | dequeueBuf _ => exact h.elim
    | streamOff => exact h.elim
    | _ => exact ⟨fun _ _ => trivial, fun _ => rfl⟩

theorem Bufferless.aside {o : KernelOp} (h : Bufferless o) : Aside o := by
  cases o with
  | setControl _ _ => trivial
  | getControl _ => trivial
  | poll _ => trivial
  | realloc _ => trivial
  | newArray _ => trivial
  | _ => exact absurd h id

/-! ## Loops that make no buffer calls -/

namespace CameraPipeline

theorem unmapSlots_aside (drop : V4l2Buffer → Bool) (n i : Nat) :
    Only Aside (unmapSlots drop n i) := by
  induction n generalizing i with
  | zero => exact only_pure _
  | succ n ih =>
    have hmunmap (b : V4l2Buffer) : Only Aside (munmapStart b) := by
      unfold munmapStart
      split
      · exact .bind (only_ask trivial) fun _ => only_pure _
      · exact only_pure _
    apply Only.bind only_get
    intro p
    apply Only.bind (onlyIf_only (.bind (hmunmap _) fun _ => only_modify _))
    intro _
    exact ih (i + 1)

theorem unmapAll_aside (i : Nat) : Only Aside (unmapAll i) :=
  .bind (unmapSlots_aside _ i 0) fun _ => only_modify _

end CameraPipeline

/-! ## The methods -/

/-- Between calls: nothing is taken, the buffers are mapped ones, and those the driver
owns are among those granted. -/
structure Driver.Sound (d : Driver) : Prop where
  returned : d.taken = []
  mapped : ∀ n m, d.granted = some (n, m) → m = .mmap
  within : ∀ i ∈ d.owned, d.Granted i .mmap

theorem Driver.sound_fresh : Driver.fresh.Sound where
  returned := rfl
  mapped := fun _ _ h => by cases h
  within := fun _ h => by cases h

def SessionInv (φ : Option Driver) (p : CameraPipeline) : Prop :=
  ∀ d, φ = some d → d.Sound ∧ p.mBufferCount < 2 ^ 31

/-- A method ends with the invariant. -/
def Kept {α : Type} (φ : Option Driver) (r : α × CameraPipeline) : Prop := SessionInv φ r.2

variable {d : Driver} {p q : CameraPipeline} {plat : Platform}

theorem SessionInv.of_sound (hd : d.Sound) (hn : p.mBufferCount < 2 ^ 31) : SessionInv (some d) p := by
  intro d' hd'
  cases hd'
  exact ⟨hd, hn⟩

theorem allowed_some {o : KernelOp} (h : d.Allowed o) : session.allowed (some d) o := by
  intro d' hd'
  cases hd'
  exact h

/-- Nothing is asked of the pipeline once the driver has broken its promise. -/
theorem obeys_broken {α : Type} {Q : Option Driver → α → Prop} (prog : Prog KernelOp KernelOp.Ans α)
    (hQ : ∀ a, Q none a) : Obeys session Q none prog := by
  induction prog with
  | ret a => exact hQ a
  | call o k ih => exact ⟨fun d hd => (Option.some_ne_none d hd.symm).elim, ih⟩

theorem Driver.Sound.streamOff (hd : d.Sound) (a : Except Errno Unit) : (d.after .streamOff a).Sound := by
  cases a with
  | error e => exact hd
  | ok _ =>
    constructor
    · exact hd.returned
    · exact hd.mapped
    · intro i hi
      cases hi

/-- The driver with one of its buffers out. -/
def Driver.dequeued (d : Driver) (index : Nat) : Driver :=
  { d with owned := d.owned.filter (· ≠ index), taken := index :: d.taken }

theorem after_dequeue_owned {buf : Dequeued} (h : buf.index.toNat ∈ d.owned) :
    session.after (some d) (.dequeueBuf .mmap) (.ok buf) = some (d.dequeued buf.index.toNat) := by
  simp [session, Driver.promise, h, Driver.after, Driver.dequeued]

theorem after_dequeue_foreign {buf : Dequeued} (h : buf.index.toNat ∉ d.owned) :
    session.after (some d) (.dequeueBuf .mmap) (.ok buf) = none := by
  simp [session, Driver.promise, h]

/-- Buffers that are granted anew are all free. -/
theorem Driver.Sound.regranted (hd : d.Sound) (count : Nat) :
    Driver.Sound { d with granted := some (count, .mmap), owned := [] } := by
  constructor
  · exact hd.returned
  · intro n m h
    cases h
    rfl
  · intro i hi
    cases hi

/-- A buffer that came out and went back, or that the driver refused. -/
theorem Driver.Sound.requeued (hd : d.Sound) {index : Nat} (h : index ∈ d.owned)
    (a : Except Errno Unit) : ((d.dequeued index).after (.queueBuf index .mmap) a).Sound := by
  have htaken : (index :: d.taken).filter (· ≠ index) = [] := by simp [hd.returned]
  have hwithin : ∀ i ∈ d.owned.filter (· ≠ index), d.Granted i .mmap := by
    intro i hi
    exact hd.within i (List.mem_filter.mp hi).1
  cases a with
  | error e => exact ⟨htaken, hd.mapped, hwithin⟩
  | ok _ =>
    constructor
    · exact htaken
    · exact hd.mapped
    · intro i hi
      rcases List.mem_cons.mp hi with rfl | hi
      · exact hd.within _ h
      · exact hwithin i hi

namespace CameraPipeline

/-- A call that the protocol says nothing about leaves the driver as it is. -/
theorem aside_session {β : Type} {Q : Option Driver → β × CameraPipeline → Prop} {o : KernelOp}
    {f : o.Ans → Pipe β} (ho : Aside o) (h : ∀ a, Obeys session Q (some d) (f a p)) :
    Obeys session Q (some d) ((ask o >>= f) p) := by
  have hs := ho.silent (some d)
  apply obeys_ask hs.1
  intro a
  rw [hs.2 a]
  exact h a

theorem closeFd_session {β : Type} {f : Unit → Pipe β}
    (h : ∀ q, q.mBufferCount = p.mBufferCount → Obeys session Kept (some .fresh) (f () q)) :
    Obeys session Kept (some d) ((closeFd >>= f) p) := by
  apply obeys_stateBind
  apply obeys_ask
  · exact allowed_some trivial
  · intro _
    exact h _ rfl

theorem openDev_session (hd : d.Sound) (hn : p.mBufferCount < 2 ^ 31) (cameraId : Int) :
    Obeys session Kept (some d) (openDev cameraId p) := by
  have hfresh := Driver.sound_fresh
  have hclose {p : CameraPipeline} (hn : p.mBufferCount < 2 ^ 31) :
      Obeys session Kept (some .fresh) ((closeFd >>= fun _ => pure (-ENODEV)) p) :=
    closeFd_session fun q hq => SessionInv.of_sound hfresh (hq ▸ hn)
  unfold openDev
  apply obeys_get
  apply obeys_ite
  · intro _
    exact SessionInv.of_sound hd hn
  · intro _
    apply obeys_modify
    apply obeys_ask
    · exact allowed_some trivial
    intro fd
    cases fd with
    | error e => exact SessionInv.of_sound hd hn
    | ok fd =>
      apply obeys_modify
      apply aside_session (d := .fresh)
      · trivial
      intro cap
      cases cap with
      | error e => exact hclose hn
      | ok cap =>
        apply obeys_ite
        · intro _
          exact hclose hn
        · intro _
          apply obeys_keep (g := fun p => p.mBufferCount)
          · exact onlyIf_only (only_modify _)
          · exact onlyIf_keeps (keeps_modify fun _ => rfl)
          · intro _ q hq
            exact SessionInv.of_sound hfresh (hq ▸ hn)

/-- Code that makes no buffer calls, with what it does to the fields. -/
theorem silent_session {α β : Type} {Q : Option Driver → β × CameraPipeline → Prop} {m : Pipe α}
    {f : α → Pipe β} (hm : Only Aside m) {T : α × CameraPipeline → Prop}
    (hT : Post (fun _ _ => True) T (m p)) (h : ∀ a q, T (a, q) → Obeys session Q (some d) (f a q)) :
    Obeys session Q (some d) ((m >>= f) p) := by
  apply obeys_stateBind
  apply obeys_silent
  · exact hm.mono (fun _ => Aside.silent) p
  · exact hT.mono fun r hr => h r.1 r.2 hr

theorem confined_session {α β : Type} {Q : Option Driver → β × CameraPipeline → Prop} {m : Pipe α}
    {f : α → Pipe β} (hm : Confined Bufferless setup m)
    (h : ∀ a q, setup q = setup p → Obeys session Q (some d) (f a q)) : Obeys session Q (some d) ((m >>= f) p) :=
  silent_session (hm.only.mono fun _ => Bufferless.aside) (hm.keeps p) h

/-- The mapping loop asks for granted buffers and leaves the driver as it is. -/
theorem mapBuffers_session {N : Nat} (hg : d.granted = some (N, .mmap)) (n i : Nat) (hi : i + n ≤ N)
    (hn : p.mBufferCount < 2 ^ 31) :
    Obeys session (fun φ r => φ = some d ∧ r.2.mBufferCount < 2 ^ 31) (some d) (mapBuffers n i p) := by
  induction n generalizing i p with
  | zero => exact ⟨rfl, hn⟩
  | succ n ih =>
    have hfail {q : CameraPipeline} (ret : Int) :
        Obeys session (fun φ r => φ = some d ∧ r.2.mBufferCount < 2 ^ 31) (some d)
          ((unmapAll i >>= fun _ => pure ret) q) :=
      silent_session (unmapAll_aside i) (unmapAll_post i) fun _ q hq => ⟨rfl, by rw [hq.2.2]; decide⟩
    have hi' : i < N := by omega
    unfold mapBuffers
    apply obeys_ask
    · exact allowed_some ⟨N, hg, hi'⟩
    intro r
    cases r with
    | error e => exact hfail _
    | ok lo =>
      apply obeys_modify
      apply aside_session (d := d)
      · trivial
      intro a
      cases a with
      | none =>
        apply obeys_modify
        exact hfail _
      | some a =>
        apply obeys_modify
        exact ih (i + 1) (by omega) hn

theorem configure_session (hd : d.Sound) (hn : p.mBufferCount < 2 ^ 31) (config : PipelineConfig) :
    Obeys session Kept (some d) (configure plat config p) := by
  unfold configure
  apply obeys_get
  apply obeys_ite
  · intro _
    exact SessionInv.of_sound hd hn
  · intro _
    apply obeys_modify
    apply obeys_get
    apply obeys_ite
    · intro _
      exact SessionInv.of_sound hd hn
    · intro _
      apply aside_session
      · trivial
      intro fmt
      cases fmt with
      | error e => exact SessionInv.of_sound hd hn
      | ok _ =>
        apply obeys_ask
        · exact allowed_some trivial
        intro req
        cases req with
        | error e => exact SessionInv.of_sound hd hn
        | ok count =>
          have hd' := hd.regranted count.toNat
          apply obeys_ite
          · intro _
            exact SessionInv.of_sound hd' hn
          · intro _
            apply obeys_modify
            have hcount : count.toInt.toNat ≤ count.toNat := by
              rw [BitVec.toInt_eq_toNat_cond]
              split <;> omega
            apply obeys_stateBind
            apply (mapBuffers_session rfl _ 0 (by omega) BitVec.toInt_lt).mono
            rintro φ r ⟨rfl, hr⟩
            apply obeys_ite
            · intro _
              exact SessionInv.of_sound hd' hr
            · intro _
              apply obeys_silent
              · exact (finishConfigure_bufferless plat config).mono (fun _ h => h.aside.silent) _
              · apply ((finishConfigure_keeps config).map fun k => k.2.2.2).post
                intro r' hr'
                have hkept : r'.2.mBufferCount = r.2.mBufferCount := hr'
                exact SessionInv.of_sound hd' (hkept ▸ hr)

/-- The queueing loop hands over buffers that are granted and free. -/
theorem queueBuffers_session (hd : d.Sound) (n i : Nat)
    (hfree : ∀ j, i ≤ j → j < i + n → d.Granted j .mmap ∧ j ∉ d.owned) :
    Obeys session (fun φ r => r.2 = p ∧ ∃ d' : Driver, φ = some d' ∧ d'.Sound) (some d)
      (queueBuffers n i p) := by
  induction n generalizing i d with
  | zero => exact ⟨rfl, d, rfl, hd⟩
  | succ n ih =>
    have hi := hfree i (Nat.le_refl i) (by omega)
    unfold queueBuffers
    apply obeys_ask
    · exact allowed_some hi
    intro r
    have htaken : d.taken.filter (· ≠ i) = [] := by simp [hd.returned]
    cases r with
    | error e => exact ⟨rfl, _, rfl, ⟨htaken, hd.mapped, hd.within⟩⟩
    | ok _ =>
      apply ih (d := { d with owned := i :: d.owned, taken := d.taken.filter (· ≠ i) })
      · constructor
        · exact htaken
        · exact hd.mapped
        · intro j hj
          rcases List.mem_cons.mp hj with rfl | hj
          · exact hi.1
          · exact hd.within j hj
      · intro j hij hjn
        have hj := hfree j (by omega) (by omega)
        constructor
        · exact hj.1
        · simp only [List.mem_cons, not_or]
          exact ⟨by omega, hj.2⟩

theorem startStreaming_session (hd : d.Sound) (hn : p.mBufferCount < 2 ^ 31)
    (hfree : p.mState = .opened → ∀ j : Nat, (j : Int) < p.mBufferCount →
      d.Granted j .mmap ∧ j ∉ d.owned) :
    Obeys session Kept (some d) (startStreaming p) := by
  unfold startStreaming
  apply obeys_get
  apply obeys_ite
  · intro _
    exact SessionInv.of_sound hd hn
  · intro hs
    apply obeys_get
    apply obeys_stateBind
    apply (queueBuffers_session hd _ 0 fun j _ hj => hfree (not_not.mp hs) j (by omega)).mono
    rintro φ ⟨ret, q⟩ ⟨rfl, d', rfl, hd'⟩
    apply obeys_ite
    · intro _
      exact SessionInv.of_sound hd' hn
    · intro _
      apply aside_session
      · trivial
      intro on
      cases on with
      | error e => exact SessionInv.of_sound hd' hn
      | ok _ =>
        apply obeys_get
        apply confined_session (setExposure_confined _)
        intro _ t ht
        apply obeys_get
        apply confined_session (setGain_confined _)
        intro _ u hu
        have hcount : u.mBufferCount = q.mBufferCount :=
          congrArg (fun r => r.mBufferCount) (hu.trans ht)
        exact SessionInv.of_sound hd' (by simpa [hcount] using hn)

/-- `stopStreaming` leaves a sound session, whatever it is followed by. -/
theorem stopStreaming_session (hd : d.Sound) (hn : p.mBufferCount < 2 ^ 31) :
    Obeys session (fun φ r => ∃ d' : Driver, φ = some d' ∧ d'.Sound ∧ r.2.mBufferCount < 2 ^ 31)
      (some d) (stopStreaming p) := by
  unfold stopStreaming
  apply obeys_get
  apply obeys_ite
  · intro _
    exact ⟨d, rfl, hd, hn⟩
  · intro _
    apply obeys_ask
    · exact allowed_some trivial
    intro a
    have hd' := hd.streamOff a
    apply obeys_get
    apply silent_session (d := d.after .streamOff a) (unmapSlots_aside _ _ 0)
      (post_true _ fun _ => trivial : Post (fun _ _ => True) (fun _ => True) _)
    intro _ q _
    exact ⟨_, rfl, hd', (by decide : (0 : Int) < 2 ^ 31)⟩

theorem close_session (hd : d.Sound) (hn : p.mBufferCount < 2 ^ 31) :
    Obeys session Kept (some d) (close p) := by
  unfold close
  apply obeys_stateBind
  apply (stopStreaming_session hd hn).mono
  rintro φ r ⟨d', rfl, hd', -⟩
  apply obeys_get
  apply silent_session (unmapSlots_aside _ _ 0)
    (post_true _ fun _ => trivial : Post (fun _ _ => True) (fun _ => True) _)
  intro _ q _
  apply obeys_modify
  apply obeys_get
  apply obeys_keep (g := fun p => p.mBufferCount)
  · exact onlyIf_only (only_modify _)
  · exact onlyIf_keeps (keeps_modify fun _ => rfl)
  intro _ t ht
  have hcount : t.mBufferCount < 2 ^ 31 := by
    rw [ht]
    exact (by decide : (0 : Int) < 2 ^ 31)
  apply obeys_get
  rw [onlyIf]
  by_cases hfd : 0 ≤ t.mFd
  · rw [if_pos hfd]
    apply closeFd_session
    intro q hq
    exact SessionInv.of_sound Driver.sound_fresh (by simpa [hq] using hcount)
  · rw [if_neg hfd]
    exact SessionInv.of_sound hd' hcount

theorem not_indexOutside {index : BitVec 32} {count : Int} (h : (index.toNat : Int) < count)
    (hn : count < 2 ^ 31) : ¬ indexOutside index count := by
  unfold indexOutside
  rw [BitVec.le_def, BitVec.toNat_ofInt]
  omega

/-- A frame is dequeued, processed and queued again. -/
theorem captureFrame_session (hd : d.Sound) (hn : p.mBufferCount < 2 ^ 31)
    (hcap : p.mState = .streaming →
      d.granted ≠ none ∧ ∀ i ∈ d.owned, (i : Int) < p.mBufferCount)
    (out : Bool) (fmt : PixelFormat) :
    Obeys session Kept (some d) (captureFrame plat out fmt p) := by
  unfold captureFrame
  apply obeys_get
  apply obeys_ite
  · intro _
    exact SessionInv.of_sound hd hn
  intro hs
  obtain ⟨hgranted, hknown⟩ := hcap (not_not.mp hs)
  obtain ⟨⟨N, memory⟩, hg⟩ := Option.ne_none_iff_exists'.mp hgranted
  obtain rfl := hd.mapped N memory hg
  apply obeys_ite
  · intro _
    exact SessionInv.of_sound hd hn
  intro _
  apply confined_session (waitFrame_confined 6)
  intro ready q hq
  have hcount : q.mBufferCount = p.mBufferCount := congrArg (fun r => r.mBufferCount) hq
  apply obeys_ite
  · intro _
    exact SessionInv.of_sound hd (hcount ▸ hn)
  intro _
  apply obeys_ask
  · exact allowed_some ⟨N, hg⟩
  intro r
  cases r with
  | error e => exact SessionInv.of_sound hd (hcount ▸ hn)
  | ok buf =>
    have hcount' : q.mBufferCount < 2 ^ 31 := hcount ▸ hn
    by_cases hown : buf.index.toNat ∈ d.owned
    · rw [after_dequeue_owned hown]
      apply obeys_get
      apply obeys_ite
      · intro hout
        have hin := hknown _ hown
        exact absurd hout (not_indexOutside (by omega) hcount')
      intro _
      apply confined_session (processBuffer_confined plat buf fmt)
      intro r t ht
      have hcount'' : t.mBufferCount = q.mBufferCount := congrArg (fun r => r.mBufferCount) ht
      apply obeys_ask
      · exact allowed_some ⟨hd.within _ hown, by simp [Driver.dequeued]⟩
      intro a
      have hd' := hd.requeued hown a
      cases a with
      | error e => exact SessionInv.of_sound hd' (hcount'' ▸ hcount')
      | ok _ => exact SessionInv.of_sound hd' (hcount'' ▸ hcount')
    · rw [after_dequeue_foreign hown]
      exact obeys_broken _ fun _ _ h => by cases h

end CameraPipeline

/-! ## Runs -/

/-- The public methods: those of `PipelineCall` and the controls. -/
inductive SessionCall
  | method (c : PipelineCall)
  | setExposure (exposure : Int)
  | setGain (gain : Int)
  | setFocus (position : Int)

def SessionCall.exec (plat : Platform) : SessionCall → Pipe Unit
  | .method c => CameraPipeline.exec plat c
  | .setExposure exposure => do
    let _ ← CameraPipeline.setExposure exposure
    return ()
  | .setGain gain => do
    let _ ← CameraPipeline.setGain gain
    return ()
  | .setFocus position => do
    let _ ← CameraPipeline.setFocus position
    return ()

/-- The pipeline and the driver it talks to. -/
structure SessionState where
  pipeline : CameraPipeline
  driver : Option Driver

namespace SessionState

/-- The calls to the kernel during a step. -/
def trace (plat : Platform) (s : SessionState) (step : SessionCall × KernelEnv) :
    List ((o : KernelOp) × o.Ans) :=
  calls step.2 0 (step.1.exec plat s.pipeline)

def next (plat : Platform) (s : SessionState) (step : SessionCall × KernelEnv) : SessionState :=
  ⟨(run step.2 0 (step.1.exec plat s.pipeline)).2, session.phase s.driver (s.trace plat step)⟩

/-- The step keeps to the protocol, and what it took out of the driver's queues is back,
or was refused, when it ends. -/
def Disciplined (plat : Platform) (s : SessionState) (step : SessionCall × KernelEnv) : Prop :=
  session.Accepts s.driver (s.trace plat step) ∧
    ∀ d, (s.next plat step).driver = some d → d.taken = []

/-- REQBUFS grants no more buffers than `mBuffers` has slots.  A stream is started on no
buffers, or on buffers that are granted and that the driver does not own; frames are
captured when buffers were granted and all that the driver owns are below `mBufferCount`;
autofocus does not capture. -/
def Careful (s : SessionState) (step : SessionCall × KernelEnv) : Prop :=
  (∀ n o, CameraPipeline.GrantsFit o (step.2 n o)) ∧ ∀ d, s.driver = some d →
    match step.1 with
    | .method .startStreaming => s.pipeline.mState = .opened → 0 < s.pipeline.mBufferCount →
        d.owned = [] ∧ s.pipeline.mBufferCount ≤ d.count
    | .method (.captureFrame _ _) => s.pipeline.mState = .streaming →
        d.granted ≠ none ∧ ∀ i ∈ d.owned, (i : Int) < s.pipeline.mBufferCount
    | .method .captureForAf => s.pipeline.mState ≠ .streaming
    | .method .startAfScan => s.pipeline.mState ≠ .streaming
    | _ => True

end SessionState

abbrev SessionReached (plat : Platform) (ok : SessionState → SessionCall × KernelEnv → Prop) :
    SessionState → Prop :=
  Reachable (fun s => ∃ id config lut, s = ⟨.new id config lut, some .fresh⟩)
    (fun s i s' => s' = s.next plat i) ok

theorem Driver.Sound.granted_of_lt (hd : d.Sound) {j : Nat} (h : j < d.count) : d.Granted j .mmap := by
  unfold Driver.count at h
  cases hg : d.granted with
  | none => simp [hg] at h
  | some g =>
    obtain ⟨n, m⟩ := g
    obtain rfl := hd.mapped n m hg
    exact ⟨n, hg, by simpa [hg] using h⟩

/-- Methods that make no buffer calls. -/
theorem bufferless_obeys {α : Type} {m : Pipe α} (hinv : SessionInv (some d) p)
    (hm : Confined Bufferless CameraPipeline.setup m) : Obeys session Kept (some d) (m p) := by
  obtain ⟨hd, hn⟩ := hinv d rfl
  apply obeys_silent
  · exact hm.only.mono (fun _ h => h.aside.silent) p
  · apply hm.keeps.post
    intro r hr
    have hcount : r.2.mBufferCount = p.mBufferCount := congrArg (fun r => r.mBufferCount) hr
    exact SessionInv.of_sound hd (hcount ▸ hn)

/-- The result of a method is dropped. -/
theorem drop_obeys {α : Type} {m : Pipe α} (h : Obeys session Kept (some d) (m p)) :
    Obeys session Kept (some d) ((m >>= fun _ => pure ()) p) :=
  obeys_stateBind (h.mono fun _ _ hr => hr)

/-- One case per method. -/
theorem method_session (hinv : SessionInv (some d) p) (c : PipelineCall) (env : KernelEnv)
    (hok : SessionState.Careful ⟨p, some d⟩ (.method c, env)) :
    Obeys session Kept (some d) (CameraPipeline.exec plat c p) := by
  obtain ⟨hd, hn⟩ := hinv d rfl
  have hok := hok.2 d rfl
  cases c with
  | openDev cameraId => exact drop_obeys (CameraPipeline.openDev_session hd hn cameraId)
  | configure config => exact drop_obeys (CameraPipeline.configure_session hd hn config)
  | startStreaming =>
    apply drop_obeys
    apply CameraPipeline.startStreaming_session hd hn
    intro hs j hj
    have hpos : 0 < p.mBufferCount := by omega
    have hfree := (hok hs hpos).1
    have hcount : p.mBufferCount ≤ d.count := (hok hs hpos).2
    constructor
    · exact hd.granted_of_lt (by omega)
    · rw [hfree]
      simp
  | stopStreaming =>
    apply drop_obeys
    apply (CameraPipeline.stopStreaming_session hd hn).mono
    rintro φ r ⟨d', rfl, hd', hr⟩
    exact SessionInv.of_sound hd' hr
  | captureFrame out fmt => exact drop_obeys (CameraPipeline.captureFrame_session hd hn hok out fmt)
  | captureForAf =>
    apply drop_obeys
    unfold CameraPipeline.captureForAf
    apply obeys_get
    rw [if_pos hok]
    exact SessionInv.of_sound hd hn
  | startAfScan =>
    show Obeys session Kept (some d) (CameraPipeline.startAfScan plat p)
    unfold CameraPipeline.startAfScan
    apply obeys_get
    rw [if_pos hok]
    exact SessionInv.of_sound hd hn
  | cancelAf => exact bufferless_obeys hinv CameraPipeline.cancelAf_confined
  | getExposure =>
    exact drop_obeys (bufferless_obeys hinv CameraPipeline.getExposure_confined)
  | getGain =>
    exact drop_obeys (bufferless_obeys hinv CameraPipeline.getGain_confined)
  | close => exact drop_obeys (CameraPipeline.close_session hd hn)

theorem exec_session (hinv : SessionInv (some d) p) (c : SessionCall) (env : KernelEnv)
    (hok : SessionState.Careful ⟨p, some d⟩ (c, env)) :
    Obeys session Kept (some d) (c.exec plat p) := by
  cases c with
  | method c => exact method_session hinv c env hok
  | setExposure e =>
    apply drop_obeys
    exact bufferless_obeys hinv (CameraPipeline.setExposure_confined e)
  | setGain g =>
    apply drop_obeys
    exact bufferless_obeys hinv (CameraPipeline.setGain_confined g)
  | setFocus pos =>
    apply drop_obeys
    exact bufferless_obeys hinv (CameraPipeline.setFocus_confined pos)

theorem step_session {s : SessionState} (hinv : SessionInv s.driver s.pipeline)
    {step : SessionCall × KernelEnv} (hok : s.Careful step) :
    Obeys session Kept s.driver (step.1.exec plat s.pipeline) := by
  obtain ⟨p, φ⟩ := s
  cases φ with
  | none => exact obeys_broken _ fun _ _ h => by cases h
  | some d => exact exec_session hinv step.1 step.2 hok

theorem session_inv {s : SessionState} (h : SessionReached plat SessionState.Careful s) :
    SessionInv s.driver s.pipeline := by
  apply h.invariant
  · rintro s ⟨id, config, lut, rfl⟩
    exact .of_sound Driver.sound_fresh (by decide : (0 : Int) < 2 ^ 31)
  · rintro s step s' hinv hok rfl
    exact obeys_run (step_session hinv hok) step.2 0

/-- **Session discipline.**  In every careful run, every step keeps to the protocol. -/
theorem session_discipline (plat : Platform) (s : SessionState) (step : SessionCall × KernelEnv)
    (h : SessionReached plat SessionState.Careful s) (hok : s.Careful step) :
    s.Disciplined plat step := by
  have hobeys : Obeys session Kept s.driver (step.1.exec plat s.pipeline) :=
    step_session (session_inv h) hok
  constructor
  · exact obeys_accepts hobeys step.2 0
  · intro d hd
    have hkept : SessionInv (s.next plat step).driver (s.next plat step).pipeline :=
      obeys_run hobeys step.2 0
    exact (hkept d hd).1.returned

/-- The session after `open` and `configure`. -/
def configuredSession : SessionState :=
  (SessionState.next flatPlatform ⟨.new 0 CameraPipeline.smallConfig fun _ => 0, some .fresh⟩
    (.method (.openDev 0), kernelGrants)).next flatPlatform
    (.method (.configure CameraPipeline.smallConfig), kernelGrants)

def streamingSession : SessionState :=
  configuredSession.next flatPlatform (.method .startStreaming, kernelGrants)

theorem configuredSession_reached {ok : SessionState → SessionCall × KernelEnv → Prop}
    (hopen : ∀ s id, ok s (.method (.openDev id), kernelGrants))
    (hconf : ∀ s config, ok s (.method (.configure config), kernelGrants)) :
    SessionReached flatPlatform ok configuredSession :=
  .next (.next (.start ⟨0, CameraPipeline.smallConfig, fun _ => 0, rfl⟩) (hopen _ _) rfl)
    (hconf _ _) rfl

theorem configuredSession_careful : configuredSession.Careful (.method .startStreaming, kernelGrants) := by
  refine ⟨CameraPipeline.kernelGrants_fit, ?_⟩
  intro d hd _ _
  have hconf : configuredSession.driver = some ⟨some (2, .mmap), [], []⟩ := rfl
  rw [hconf] at hd
  cases hd
  exact ⟨rfl, by decide⟩

theorem streamingSession_driver :
    streamingSession.driver = some ⟨some (2, .mmap), [1, 0], []⟩ := rfl

/-- A frame of the streaming session goes round. -/
theorem session_discipline_capture :
    streamingSession.Disciplined flatPlatform (.method (.captureFrame true .rgba8888), kernelGrants) := by
  apply session_discipline
  · have hfit := CameraPipeline.kernelGrants_fit
    exact .next (configuredSession_reached (fun _ _ => ⟨hfit, fun _ _ => trivial⟩)
      fun _ _ => ⟨hfit, fun _ _ => trivial⟩) configuredSession_careful rfl
  · refine ⟨CameraPipeline.kernelGrants_fit, ?_⟩
    intro d hd _
    rw [streamingSession_driver] at hd
    cases hd
    exact ⟨by decide, by decide⟩

/-- The kernel of `kernelGrants`, but STREAMON and STREAMOFF fail. -/
def streamSwitchFails : KernelEnv := fun n o =>
  match o with
  | .streamOn => .error ⟨5, by decide⟩
  | .streamOff => .error ⟨5, by decide⟩
  | o => kernelGrants n o

/-- Both buffers are queued, and then STREAMON fails. -/
def halfStarted : SessionState :=
  configuredSession.next flatPlatform (.method .startStreaming, streamSwitchFails)

/-- STREAMOFF fails, and the stream is started again without a buffer. -/
def restarted : SessionState :=
  (streamingSession.next flatPlatform (.method .stopStreaming, streamSwitchFails)).next flatPlatform
    (.method .startStreaming, kernelGrants)

/-- Autofocus asks for another memory type, the second start queues a buffer that the driver
has, and a frame after the failed STREAMOFF is not given back. -/
theorem session_broken :
    (SessionReached flatPlatform (fun _ _ => True) streamingSession ∧
      ¬ streamingSession.Disciplined flatPlatform (.method .captureForAf, kernelGrants)) ∧
    (SessionReached flatPlatform (fun _ _ => True) halfStarted ∧
      ¬ halfStarted.Disciplined flatPlatform (.method .startStreaming, kernelGrants)) ∧
    SessionReached flatPlatform (fun _ _ => True) restarted ∧
      ¬ restarted.Disciplined flatPlatform (.method (.captureFrame true .rgba8888), kernelGrants) := by
  have hconf : SessionReached flatPlatform (fun _ _ => True) configuredSession :=
    configuredSession_reached (fun _ _ => trivial) fun _ _ => trivial
  have hstream : SessionReached flatPlatform (fun _ _ => True) streamingSession :=
    .next hconf trivial rfl
  have hhalf : SessionReached flatPlatform (fun _ _ => True) halfStarted := .next hconf trivial rfl
  have hre : SessionReached flatPlatform (fun _ _ => True) restarted :=
    .next (.next hstream trivial rfl) trivial rfl
  refine ⟨⟨hstream, ?_⟩, ⟨hhalf, ?_⟩, hre, ?_⟩
  · intro h
    obtain ⟨n, hn⟩ := h.1.2.1 _ rfl
    cases hn
  · intro h
    have hfree := (h.1.1 _ rfl).2
    exact absurd hfree (by decide)
  · intro h
    have htaken := h.2 ⟨some (2, .mmap), [1], [0]⟩ rfl
    cases htaken

end MochaHal.Camera
