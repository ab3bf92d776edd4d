import MochaHal.Lib.Reach

/-! The worker thread of compressed playback in `audio/audio_hw.c`:
`out_compress_async_fn`, the requests made to it with `signal_async_thread` and its end
in `do_close_out_common`, under every interleaving.

`pthread_cond_signal` wakes a thread that waits and is forgotten otherwise, and the
worker waits before it looks at `mode`.  `no_lost_wakeup` says that the worker never
sleeps on work as long as requests are accepted only while it is in
`pthread_cond_wait`, and `careless_step_blocks` that every other request puts it to
sleep on one. -/

namespace MochaHal.Audio.Async
open MochaHal.Reach

/-! ## The source -/

inductive AsyncMode
  | ASYNC_NONE
  | ASYNC_POLL
  | ASYNC_EARLY_DRAIN
  | ASYNC_FULL_DRAIN
  deriving DecidableEq, Repr

inductive CallbackEvent
  | STREAM_CBK_EVENT_WRITE_READY
  | STREAM_CBK_EVENT_DRAIN_READY
  deriving DecidableEq, Repr

/-- Where the worker is in `out_compress_async_fn`. -/
inductive WorkerPc
  /-- at the test of the `while` -/
  | testing
  /-- at `pthread_mutex_lock` -/
  | locking
  /-- with the mutex, at `pthread_cond_wait` -/
  | enteringWait
  /-- asleep in `pthread_cond_wait` -/
  | waiting
  /-- woken in `pthread_cond_wait`, to take the mutex again -/
  | woken
  /-- back from `pthread_cond_wait`, with the mutex -/
  | returned
  /-- with the mutex, at `pthread_mutex_unlock` -/
  | unlocking (mode : AsyncMode)
  /-- in the blocking calls of the `switch` -/
  | working (mode : AsyncMode)
  /-- at the callback -/
  | calling (event : CallbackEvent)
  | exited
  deriving DecidableEq, Repr

/-- The other users of the mutex. -/
inductive Caller
  | signal_async_thread (mode : AsyncMode)
  | do_close_out_common
  deriving DecidableEq, Repr

/-- Who has the mutex; a caller has its return value once its critical section is done. -/
inductive Holder
  | worker
  | caller (c : Caller) (ret : Option Int)
  deriving DecidableEq, Repr

/-- How far `do_close_out_common` has come. -/
inductive ClosePc
  | running
  | joining
  | joined
  deriving DecidableEq, Repr

/-- The fields of `async_common_t`, the threads that use it, and the requests accepted
and taken so far. -/
structure AsyncCommon where
  exit : Bool
  mode : AsyncMode
  mutex : Option Holder
  worker : WorkerPc
  closing : ClosePc
  accepted : List AsyncMode
  taken : List AsyncMode
  deriving DecidableEq, Repr

/-- `out_set_callback` on a stream from `calloc`. -/
def AsyncCommon.start : AsyncCommon :=
  ⟨false, .ASYNC_NONE, none, .testing, .running, [], []⟩

def EBUSY : Int := 16

/-- `pthread_cond_signal`. -/
def condSignal : WorkerPc → WorkerPc
  | .waiting => .woken
  | pc => pc

/-- The event that the `switch` reports, if any. -/
def eventOf : AsyncMode → Option CallbackEvent
  | .ASYNC_NONE => none
  | .ASYNC_POLL => some .STREAM_CBK_EVENT_WRITE_READY
  | .ASYNC_EARLY_DRAIN => some .STREAM_CBK_EVENT_DRAIN_READY
  | .ASYNC_FULL_DRAIN => some .STREAM_CBK_EVENT_DRAIN_READY

namespace AsyncCommon

/-- One step of `out_compress_async_fn`. -/
def workerStep (s : AsyncCommon) : Option AsyncCommon :=
  match s.worker with
  | .testing => some { s with worker := if s.exit then .exited else .locking }
  | .locking =>
    if s.mutex = none then some { s with mutex := some .worker, worker := .enteringWait } else none
  | .enteringWait => some { s with mutex := none, worker := .waiting }
  | .waiting => none
  | .woken =>
    if s.mutex = none then some { s with mutex := some .worker, worker := .returned } else none
  | .returned =>
    -- the `break` leaves the loop with the mutex held
    if s.exit then some { s with worker := .exited }
    else some { s with mode := .ASYNC_NONE, worker := .unlocking s.mode,
                       taken := s.taken ++ [s.mode] }
  | .unlocking mode => some { s with mutex := none, worker := .working mode }
  | .working mode =>
    match eventOf mode with
    | none => some { s with worker := .testing }
    | some event => some { s with worker := .calling event }
  | .calling _ => some { s with worker := .testing }
  | .exited => none

/-- What a caller does while it has the mutex. -/
def critical (s : AsyncCommon) : Caller → AsyncCommon
  | .signal_async_thread mode =>
    if s.mode ≠ .ASYNC_NONE then
      { s with mutex := some (.caller (.signal_async_thread mode) (some (-EBUSY))) }
    else
      { s with mode := mode, worker := condSignal s.worker, accepted := s.accepted ++ [mode],
               mutex := some (.caller (.signal_async_thread mode) (some 0)) }
  | .do_close_out_common =>
    { s with exit := true, worker := condSignal s.worker, closing := .joining,
             mutex := some (.caller .do_close_out_common (some 0)) }

end AsyncCommon

inductive Act
  | worker
  /-- `pthread_cond_wait` returns without a signal -/
  | spurious
  | lock (c : Caller)
  | critical (c : Caller)
  | unlock (c : Caller)
  | join
  deriving DecidableEq, Repr

namespace AsyncCommon

def next (s : AsyncCommon) : Act → Option AsyncCommon
  | .worker => s.workerStep
  | .spurious => if s.worker = .waiting then some { s with worker := .woken } else none
  | .lock c =>
    -- a stream is closed once, and freed after the join
    if s.mutex = none ∧ s.closing ≠ .joined ∧ (c = .do_close_out_common → s.closing = .running) then
      some { s with mutex := some (.caller c none) }
    else none
  | .critical c => if s.mutex = some (.caller c none) then some (s.critical c) else none
  | .unlock c =>
    match s.mutex with
    | some (.caller c' (some _)) => if c' = c then some { s with mutex := none } else none
    | _ => none
  | .join =>
    if s.closing = .joining ∧ s.worker = .exited then some { s with closing := .joined } else none

/-- The worker sleeps and nobody will wake it, though there is something to do. -/
def Blocked (s : AsyncCommon) : Prop :=
  s.worker = .waiting ∧ (s.mode ≠ .ASYNC_NONE ∨ s.exit = true)

/-- Some caller is between its lock and its unlock. -/
def HeldByCaller (s : AsyncCommon) : Prop := ∃ c ret, s.mutex = some (.caller c ret)

/-- The worker alone, for some steps. -/
def workerRun : Nat → AsyncCommon → Option AsyncCommon
  | 0, s => some s
  | n + 1, s => s.workerStep.bind (workerRun n)

end AsyncCommon

/-- Requests are accepted while the worker is in `pthread_cond_wait` or once it was told
to exit, and it is not told so between its test of `exit` and its wait. -/
def Careful (s : AsyncCommon) : Act → Prop
  | .critical (.signal_async_thread mode) =>
    mode ≠ .ASYNC_NONE → s.mode = .ASYNC_NONE →
      s.worker = .waiting ∨ s.worker = .woken ∨ s.exit = true
  | .critical .do_close_out_common => s.worker ≠ .locking
  | _ => True

instance (s : AsyncCommon) (a : Act) : Decidable (Careful s a) :=
  match a with
  | .critical (.signal_async_thread mode) =>
    inferInstanceAs (Decidable (mode ≠ .ASYNC_NONE → s.mode = .ASYNC_NONE →
      s.worker = .waiting ∨ s.worker = .woken ∨ s.exit = true))
  | .critical .do_close_out_common => inferInstanceAs (Decidable (s.worker ≠ .locking))
  | .worker | .spurious | .lock _ | .unlock _ | .join => isTrue trivial

instance (s : AsyncCommon) : Decidable s.Blocked :=
  inferInstanceAs (Decidable (s.worker = .waiting ∧ (s.mode ≠ .ASYNC_NONE ∨ s.exit = true)))

abbrev Reached (ok : AsyncCommon → Act → Prop) : AsyncCommon → Prop :=
  Reachable (fun s => s = .start) (fun s a s' => s.next a = some s') ok

/-! ## The mutex -/

@[simp] def WorkerPc.hasMutex : WorkerPc → Bool
  | .enteringWait => true
  | .returned => true
  | .unlocking _ => true
  | _ => false

theorem condSignal_hasMutex (pc : WorkerPc) : (condSignal pc).hasMutex = pc.hasMutex := by
  cases pc <;> rfl

/-- The worker is past the point where an exit request can be missed. -/
@[simp] def WorkerPc.seesExit : WorkerPc → Bool
  | .locking => false
  | .enteringWait => false
  | .waiting => false
  | _ => true

structure Inv (s : AsyncCommon) : Prop where
  owner : s.worker.hasMutex = true → s.mutex = some .worker
  owned : s.mutex = some .worker → s.worker.hasMutex = true ∨ s.worker = .exited
  pending : s.mode ≠ .ASYNC_NONE → s.exit = false → s.worker = .woken ∨ s.worker = .returned
  exiting : s.exit = true → s.worker.seesExit = true
  ended : s.worker = .exited → s.exit = true

theorem inv_start : Inv .start := by
  constructor <;> simp [AsyncCommon.start]

variable {s s' : AsyncCommon} {c : Caller} {m : AsyncMode}

theorem Inv.workerStep (h : Inv s) (hs : s.workerStep = some s') : Inv s' := by
  obtain ⟨howner, howned, hpending, hexiting, hended⟩ := h
  unfold AsyncCommon.workerStep at hs
  cases hw : s.worker with
  | testing =>
    simp only [hw, Option.some.injEq] at hs
    subst hs
    cases he : s.exit <;> constructor <;> simp_all
  | locking =>
    simp only [hw] at hs
    split at hs <;> cases hs
    constructor <;> simp_all
  | enteringWait =>
    simp only [hw, Option.some.injEq] at hs
    subst hs
    constructor <;> simp_all
  | waiting => simp [hw] at hs
  | woken =>
    simp only [hw] at hs
    split at hs <;> cases hs
    constructor <;> simp_all
  | returned =>
    simp only [hw] at hs
    split at hs <;> cases hs <;> constructor <;> simp_all
  | unlocking mode =>
    simp only [hw, Option.some.injEq] at hs
    subst hs
    constructor <;> simp_all
  | working mode =>
    simp only [hw] at hs
    split at hs <;> cases hs <;> constructor <;> simp_all
  | calling event =>
    simp only [hw, Option.some.injEq] at hs
    subst hs
    constructor <;> simp_all
  | exited => simp [hw] at hs

/-- A caller with the mutex keeps the worker out of its own critical section. -/
theorem Inv.noMutex (h : Inv s) (hm : s.mutex = some (.caller c none)) :
    s.worker.hasMutex = false := by
  apply Bool.eq_false_of_not_eq_true
  intro hw
  have := h.owner hw
  rw [hm] at this
  cases this

theorem Inv.signal (h : Inv s) (hm : s.mutex = some (.caller (.signal_async_thread m) none))
    (hok : Careful s (.critical (.signal_async_thread m))) :
    Inv (s.critical (.signal_async_thread m)) := by
  have hno := h.noMutex hm
  obtain ⟨howner, howned, hpending, hexiting, hended⟩ := h
  rw [AsyncCommon.critical]
  by_cases hmode : s.mode = .ASYNC_NONE
  · rw [if_neg (not_not.mpr hmode)]
    constructor
    · intro hw
      rw [condSignal_hasMutex, hno] at hw
      cases hw
    · simp
    · intro hne he
      rcases hok hne hmode with hw | hw | hw
      · simp [hw, condSignal]
      · simp [hw, condSignal]
      · simp_all
    · intro he
      have := hexiting he
      cases hw : s.worker <;> simp_all [condSignal]
    · intro hx
      cases hw : s.worker <;> simp_all [condSignal]
  · rw [if_pos hmode]
    constructor <;> simp_all

theorem Inv.close (h : Inv s) (hm : s.mutex = some (.caller .do_close_out_common none))
    (hok : Careful s (.critical .do_close_out_common)) :
    Inv (s.critical .do_close_out_common) := by
  have hno := h.noMutex hm
  have hlocking : s.worker ≠ .locking := hok
  unfold AsyncCommon.critical
  constructor
  · intro hw
    rw [condSignal_hasMutex, hno] at hw
    cases hw
  · simp
  · simp
  · intro _
    cases hw : s.worker <;> simp_all [condSignal]
  · simp

theorem Inv.next {a : Act} (h : Inv s) (hok : Careful s a) (hs : s.next a = some s') : Inv s' := by
  cases a with
  | worker => exact h.workerStep hs
  | spurious =>
    simp only [AsyncCommon.next] at hs
    split at hs <;> cases hs
    obtain ⟨howner, howned, hpending, hexiting, hended⟩ := h
    constructor <;> simp_all
  | lock c =>
    simp only [AsyncCommon.next] at hs
    split at hs <;> cases hs
    obtain ⟨howner, howned, hpending, hexiting, hended⟩ := h
    constructor <;> simp_all
  | critical c =>
    simp only [AsyncCommon.next] at hs
    split at hs
    · rename_i hm
      cases hs
      cases c with
      | signal_async_thread m => exact h.signal hm hok
      | do_close_out_common => exact h.close hm hok
    · cases hs
  | unlock c =>
    simp only [AsyncCommon.next] at hs
    split at hs
    · split at hs <;> cases hs
      obtain ⟨howner, howned, hpending, hexiting, hended⟩ := h
      constructor <;> simp_all
    · cases hs
  | join =>
    simp only [AsyncCommon.next] at hs
    split at hs <;> cases hs
    exact ⟨h.owner, h.owned, h.pending, h.exiting, h.ended⟩

theorem inv_of_reached (h : Reached Careful s) : Inv s :=
  h.invariant (fun _ hs => hs ▸ inv_start) fun _ _ _ hi hok hs => hi.next hok hs

/-! ## What follows for the worker -/

theorem Inv.not_blocked (h : Inv s) : ¬ s.Blocked := by
  rintro ⟨hw, hmode | he⟩
  · cases he : s.exit with
    | false =>
      have := h.pending hmode he
      simp [hw] at this
    | true =>
      have := h.exiting he
      simp [hw] at this
  · have := h.exiting he
    simp [hw] at this

/-- Outside the callers' critical sections a woken worker finds the mutex free. -/
theorem Inv.free (h : Inv s) (hc : ¬ s.HeldByCaller) (hw : s.worker = .woken) : s.mutex = none := by
  cases hm : s.mutex with
  | none => rfl
  | some holder =>
    cases holder with
    | worker =>
      have := h.owned hm
      simp [hw] at this
    | caller c ret => exact absurd ⟨c, ret, hm⟩ hc

theorem Inv.picks_up (h : Inv s) (hc : ¬ s.HeldByCaller) (hmode : s.mode ≠ .ASYNC_NONE)
    (he : s.exit = false) :
    ∃ n s', n ≤ 2 ∧ s.workerRun n = some s' ∧ s'.taken = s.taken ++ [s.mode] := by
  rcases h.pending hmode he with hw | hw
  · have hm := h.free hc hw
    exact ⟨2, _, le_refl 2, by simp [AsyncCommon.workerRun, AsyncCommon.workerStep, hw, hm, he]; rfl, rfl⟩
  · exact ⟨1, _, by decide, by simp [AsyncCommon.workerRun, AsyncCommon.workerStep, hw, he]; rfl, rfl⟩

/-- Left to itself, the worker comes to its end. -/
def Ends (s : AsyncCommon) : Prop := ∃ n s', s.workerRun n = some s' ∧ s'.worker = .exited

theorem ends_step (hs : s.workerStep = some s') (h : Ends s') : Ends s := by
  obtain ⟨n, s'', hrun, hw⟩ := h
  exact ⟨n + 1, s'', by rw [AsyncCommon.workerRun, hs]; exact hrun, hw⟩

theorem ends_exited (hw : s.worker = .exited) : Ends s := ⟨0, s, rfl, hw⟩

theorem ends_testing (he : s.exit = true) (hw : s.worker = .testing) : Ends s := by
  have hs : s.workerStep = some { s with worker := .exited } := by
    simp [AsyncCommon.workerStep, hw, he]
  apply ends_step hs
  exact ends_exited rfl

theorem ends_returned (he : s.exit = true) (hw : s.worker = .returned) : Ends s := by
  have hs : s.workerStep = some { s with worker := .exited } := by
    simp [AsyncCommon.workerStep, hw, he]
  apply ends_step hs
  exact ends_exited rfl

theorem ends_calling {event : CallbackEvent} (he : s.exit = true) (hw : s.worker = .calling event) :
    Ends s := by
  have hs : s.workerStep = some { s with worker := .testing } := by
    simp [AsyncCommon.workerStep, hw]
  apply ends_step hs
  exact ends_testing he rfl

theorem ends_working (he : s.exit = true) (hw : s.worker = .working m) : Ends s := by
  cases hv : eventOf m with
  | none =>
    have hs : s.workerStep = some { s with worker := .testing } := by
      simp [AsyncCommon.workerStep, hw, hv]
    apply ends_step hs
    exact ends_testing he rfl
  | some event =>
    have hs : s.workerStep = some { s with worker := .calling event } := by
      simp [AsyncCommon.workerStep, hw, hv]
    apply ends_step hs
    exact ends_calling he rfl

theorem Inv.ends (h : Inv s) (hc : ¬ s.HeldByCaller) (he : s.exit = true) : Ends s := by
  have hsees := h.exiting he
  cases hw : s.worker with
  | testing => exact ends_testing he hw
  | locking => simp [hw] at hsees
  | enteringWait => simp [hw] at hsees
  | waiting => simp [hw] at hsees
  | woken =>
    have hs : s.workerStep = some { s with mutex := some .worker, worker := .returned } := by
      simp [AsyncCommon.workerStep, hw, h.free hc hw]
    apply ends_step hs
    exact ends_returned he rfl
  | returned => exact ends_returned he hw
  | unlocking m =>
    have hs : s.workerStep = some { s with mutex := none, worker := .working m } := by
      simp [AsyncCommon.workerStep, hw]
    apply ends_step hs
    exact ends_working he rfl
  | working m => exact ends_working he hw
  | calling event => exact ends_calling he hw
  | exited => exact ends_exited hw

/-- **No lost wakeup.**  In every state that careful runs reach, the worker does not sleep
on work; a request accepted before the exit is taken within its next two steps, and
after an exit request it comes to its end, so that the join returns.  Both count from
where no caller has the mutex. -/
theorem no_lost_wakeup (h : Reached Careful s) :
    ¬ s.Blocked ∧
    (¬ s.HeldByCaller → s.mode ≠ .ASYNC_NONE → s.exit = false →
      ∃ n s', n ≤ 2 ∧ s.workerRun n = some s' ∧ s'.taken = s.taken ++ [s.mode]) ∧
    (¬ s.HeldByCaller → s.exit = true → Ends s) := by
  have hinv := inv_of_reached h
  refine ⟨hinv.not_blocked, ?_, ?_⟩
  · intro hc hmode he
    exact hinv.picks_up hc hmode he
  · intro hc he
    exact hinv.ends hc he

/-- A whole call of one of the callers. -/
def call (c : Caller) : List Act := [.lock c, .critical c, .unlock c]

/-- The worker goes to sleep, and then there is a request to poll. -/
def polledAsleep : List Act :=
  [.worker, .worker, .worker] ++ call (.signal_async_thread .ASYNC_POLL)

def afterPoll : AsyncCommon :=
  ⟨false, .ASYNC_POLL, none, .woken, .running, [.ASYNC_POLL], []⟩

theorem no_lost_wakeup_poll :
    ¬ afterPoll.Blocked ∧
    ∃ n s', n ≤ 2 ∧ afterPoll.workerRun n = some s' ∧ s'.taken = [.ASYNC_POLL] := by
  have hr : Reached Careful afterPoll := reachable_foldlM polledAsleep (.start rfl) (by decide)
  have h := no_lost_wakeup hr
  refine ⟨h.1, h.2.1 ?_ (by decide) rfl⟩
  rintro ⟨c, ret, hm⟩
  cases hm

/-- A request that comes before the first wait is slept on. -/
theorem early_request_lost : ¬ ∀ s, Reached (fun _ _ => True) s → ¬ s.Blocked := by
  intro h
  have hr : Reached (fun _ _ => True)
      ⟨false, .ASYNC_POLL, none, .waiting, .running, [.ASYNC_POLL], []⟩ :=
    reachable_foldlM (call (.signal_async_thread .ASYNC_POLL) ++ [.worker, .worker, .worker])
      (.start rfl) (by decide)
  exact h _ hr (by decide)

/-! ## Careless requests -/

/-- Some further steps put the worker to sleep on its work. -/
def LeadsToBlocked (s : AsyncCommon) : Prop :=
  ∃ (as : List Act) (s' : AsyncCommon), as.foldlM AsyncCommon.next s = some s' ∧ s'.Blocked

theorem leads_step {a : Act} (hs : s.next a = some s') (h : LeadsToBlocked s') : LeadsToBlocked s := by
  obtain ⟨as, s'', hrun, hb⟩ := h
  exact ⟨a :: as, s'', by rw [List.foldlM_cons, hs]; exact hrun, hb⟩

theorem enteringWait_leads (hw : s.worker = .enteringWait)
    (hwork : s.mode ≠ .ASYNC_NONE ∨ s.exit = true) : LeadsToBlocked s := by
  have hs : s.next .worker = some { s with mutex := none, worker := .waiting } := by
    simp [AsyncCommon.next, AsyncCommon.workerStep, hw]
  apply leads_step hs
  exact ⟨[], _, rfl, rfl, hwork⟩

theorem locking_leads (hw : s.worker = .locking) (hm : s.mutex = none)
    (hwork : s.mode ≠ .ASYNC_NONE ∨ s.exit = true) : LeadsToBlocked s := by
  have hs : s.next .worker = some { s with mutex := some .worker, worker := .enteringWait } := by
    simp [AsyncCommon.next, AsyncCommon.workerStep, hw, hm]
  apply leads_step hs
  exact enteringWait_leads rfl hwork

theorem testing_leads (hw : s.worker = .testing) (hm : s.mutex = none)
    (hmode : s.mode ≠ .ASYNC_NONE) (he : s.exit = false) : LeadsToBlocked s := by
  have hs : s.next .worker = some { s with worker := .locking } := by
    simp [AsyncCommon.next, AsyncCommon.workerStep, hw, he]
  apply leads_step hs
  exact locking_leads rfl hm (.inl hmode)

theorem calling_leads {event : CallbackEvent} (hw : s.worker = .calling event) (hm : s.mutex = none)
    (hmode : s.mode ≠ .ASYNC_NONE) (he : s.exit = false) : LeadsToBlocked s := by
  have hs : s.next .worker = some { s with worker := .testing } := by
    simp [AsyncCommon.next, AsyncCommon.workerStep, hw]
  apply leads_step hs
  exact testing_leads rfl hm hmode he

theorem working_leads (hw : s.worker = .working m) (hm : s.mutex = none)
    (hmode : s.mode ≠ .ASYNC_NONE) (he : s.exit = false) : LeadsToBlocked s := by
  cases hv : eventOf m with
  | none =>
    have hs : s.next .worker = some { s with worker := .testing } := by
      simp [AsyncCommon.next, AsyncCommon.workerStep, hw, hv]
    apply leads_step hs
    exact testing_leads rfl hm hmode he
  | some event =>
    have hs : s.next .worker = some { s with worker := .calling event } := by
      simp [AsyncCommon.next, AsyncCommon.workerStep, hw, hv]
    apply leads_step hs
    exact calling_leads rfl hm hmode he

theorem critical_unlock (s : AsyncCommon) (c : Caller) :
    (s.critical c).next (.unlock c) = some { s.critical c with mutex := none } := by
  cases c with
  | signal_async_thread m =>
    rw [AsyncCommon.critical]
    split <;> simp [AsyncCommon.next]
  | do_close_out_common => simp [AsyncCommon.critical, AsyncCommon.next]

/-- A state that a careful run reaches and a step that is not careful: from there the
worker can go to sleep on its work. -/
theorem careless_step_blocks {a : Act} (h : Reached Careful s) (hok : ¬ Careful s a)
    (hs : s.next a = some s') : LeadsToBlocked s' := by
  have hinv := inv_of_reached h
  cases a with
  | critical c =>
    simp only [AsyncCommon.next] at hs
    split at hs
    case isFalse => cases hs
    case isTrue hm =>
      cases hs
      have hno := hinv.noMutex hm
      apply leads_step (critical_unlock s c)
      cases c with
      | signal_async_thread m =>
        simp only [Careful, not_forall, not_or] at hok
        obtain ⟨hne, hmode, hwait, hwoken, he⟩ := hok
        have he : s.exit = false := Bool.eq_false_of_not_eq_true he
        rw [AsyncCommon.critical, if_neg (not_not.mpr hmode)]
        cases hw : s.worker with
        | testing => exact testing_leads rfl rfl hne he
        | locking => exact locking_leads rfl rfl (.inl hne)
        | enteringWait => simp [hw] at hno
        | waiting => exact absurd hw hwait
        | woken => exact absurd hw hwoken
        | returned => simp [hw] at hno
        | unlocking _ => simp [hw] at hno
        | working _ => exact working_leads rfl rfl hne he
        | calling _ => exact calling_leads rfl rfl hne he
        | exited =>
          have := hinv.ended hw
          rw [he] at this
          cases this
      | do_close_out_common =>
        have hw : s.worker = .locking := not_not.mp hok
        exact locking_leads (by simp [AsyncCommon.critical, hw, condSignal]) rfl (.inr rfl)
  | worker => exact absurd trivial hok
  | spurious => exact absurd trivial hok
  | lock c => exact absurd trivial hok
  | unlock c => exact absurd trivial hok
  | join => exact absurd trivial hok

end MochaHal.Audio.Async
