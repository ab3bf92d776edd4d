import MochaHal.Camera.InFlight

/-! What a capture request leaves in the tracker.  Requests run at the same time as
each other and as calls that go over the whole tracker: `flush`, `close` and
`configure_streams`.  For every request the board keeps a second tracker on which
only the other threads' calls act.  `tracker_does_not_leak` says that a request
that has returned is out of the tracker, and that the rest of the tracker is what
that second one has. -/

namespace MochaHal.Camera
open MochaHal.Prog MochaHal.Monitor MochaHal.Reach

/-! ## Calls on the tracker -/

namespace InFlightTracker

/-- The tracker after a call. -/
def after (t : InFlightTracker) (o : DevOp) : InFlightTracker :=
  match t.answer o with
  | some r => r.2
  | none => t

/-- What a call does to one frame depends on that frame alone. -/
theorem lookup_after_congr {t u : InFlightTracker} {g : BitVec 32} (h : t.lookup g = u.lookup g)
    (o : DevOp) : (t.after o).lookup g = (u.after o).lookup g := by
  cases o with
  | add f b => simp [after, answer, h]
  | remove f => simp [after, answer, h]
  | markAllAsError => simp [after, answer, h]
  | drainAll => rfl
  | _ => exact h

/-- Calls that put nothing into the tracker. -/
def NoAdd : DevOp → Prop
  | .add _ _ => False
  | _ => True

theorem lookup_after_none {t : InFlightTracker} {g : BitVec 32} (h : t.lookup g = none) {o : DevOp}
    (ho : NoAdd o) : (t.after o).lookup g = none := by
  cases o with
  | add f b => exact absurd ho id
  | remove f => simp [after, answer, h]
  | markAllAsError => simp [after, answer, h]
  | drainAll => rfl
  | _ => exact h

/-- A request's call leaves the other frames alone. -/
theorem lookup_after_other {t : InFlightTracker} {f g : BitVec 32} {φ : Phase} {o : DevOp}
    (ho : (requestProtocol f).allowed φ o) (hg : g ≠ f) : (t.after o).lookup g = t.lookup g := by
  unfold after
  cases hans : t.answer o with
  | none => rfl
  | some r => exact System.lookup_other hg ho hans

/-- A request's call keeps its frame out of the tracker when its phase says so. -/
theorem lookup_after_own {t : InFlightTracker} {f : BitVec 32} {φ : Phase} {o : DevOp} (a : o.Ans)
    (h : φ.Untracked → t.lookup f = none) (ho : (requestProtocol f).allowed φ o)
    (hφ : (φ.after o a).Untracked) : (t.after o).lookup f = none := by
  cases o with
  | add g b => exact absurd hφ id
  | remove g =>
    obtain rfl : g = f := ho
    simp [after, answer]
  | isError g =>
    cases φ with
    | tracked => exact absurd hφ id
    | checked b => exact absurd hφ id
    | fresh => exact h trivial
    | gone b => exact h trivial
  | markAllAsError => exact absurd ho id
  | drainAll => exact absurd ho id
  | _ => exact h hφ

end InFlightTracker

/-! ## Calls over the whole tracker -/

inductive Sweep
  | flush
  | close
  | configureStreams (streams : List Stream)

namespace CameraDevice
open InFlightTracker (NoAdd)

def sweep (plat : Platform) : Sweep → Dev Int
  | .flush => flush
  | .close => close
  | .configureStreams streams => do
    let _ ← configureStreams plat streams
    return 0

theorem Plain.noAdd {o : DevOp} (h : Plain o) : NoAdd o := by
  cases o with
  | add f b => exact absurd h id
  | _ => trivial

theorem drainInFlight_noAdd : Only NoAdd drainInFlight := by
  have hresults (frames : List (BitVec 32)) : Only NoAdd (drainResults frames) := by
    induction frames with
    | nil => exact only_pure _
    | cons f rest ih => exact .bind (only_ask trivial) fun _ => ih
  exact .bind (only_ask trivial) fun _ => onlyIf_only (.bind (only_ask trivial) hresults)

theorem configureStreams_noAdd (plat : Platform) (streams : List Stream) :
    Only NoAdd (configureStreams plat streams) := by
  refine .ite (only_pure _) ?_
  split
  · exact only_pure _
  · split
    · exact only_pure _
    · refine .bind only_get fun d => .ite (only_pure _) (.bind ?_ fun _ => only_pure _)
      refine .bind drainInFlight_noAdd fun _ => Only.mono (.bind closePrevious_plain fun _ => ?_)
        fun _ => Plain.noAdd
      refine .bind (only_ask trivial) fun garbage => .bind only_get fun _ => ?_
      refine .bind (runOn_plain _ _) fun opened => .ite (only_pure _) ?_
      exact .bind (startPipeline_plain plat _ _ _) fun _ => only_pure _

theorem sweep_noAdd (plat : Platform) (sw : Sweep) : Only NoAdd (sweep plat sw) := by
  cases sw with
  | flush =>
    refine .bind only_get fun d => .bind (onlyIf_only (.bind ?_ fun _ => only_pure _)) fun _ => ?_
    · exact (onPipeline_plain _ _).mono fun _ => Plain.noAdd
    · exact .bind (only_ask trivial) fun _ => .bind (only_ask trivial) fun _ => only_pure _
  | close =>
    refine .bind (only_modify _) fun _ => .bind (only_ask trivial) fun _ => .bind ?_ fun _ => only_pure _
    exact closePrevious_plain.mono fun _ => Plain.noAdd
  | configureStreams streams => exact .bind (configureStreams_noAdd plat streams) fun _ => only_pure _

end CameraDevice

/-! ## The board -/

inductive Caller
  | request (frame : BitVec 32)
  | sweep (i : Nat)
  deriving DecidableEq, Repr

/-- `without f` starts as the tracker that request `f` found and follows the calls of
the other threads. -/
structure Board where
  tracker : InFlightTracker
  threads : Caller → Option Thread
  without : BitVec 32 → InFlightTracker

namespace Board

def init : Board := ⟨[], fun _ => none, fun _ => []⟩

/-- No two requests in flight have the same frame number.  A call that does not go to
the tracker is answered by `env`. -/
inductive Label
  | startRequest (request : CaptureRequest) (dev : CameraDevice)
  | startSweep (i : Nat) (sw : Sweep) (dev : CameraDevice)
  | perform (caller : Caller) (env : DeviceEnv)

/-- The caller has no thread, or one that has returned. -/
def idle (s : Board) (caller : Caller) : Bool :=
  match s.threads caller with
  | some ⟨_, .call _ _⟩ => false
  | _ => true

def start (s : Board) (caller : Caller) (prog : Prog DevOp DevOp.Ans (Int × CameraDevice)) :
    Option Board :=
  if s.idle caller then some { s with
    threads := Function.update s.threads caller (some ⟨.fresh, prog⟩)
    without := fun f => if caller = .request f then s.tracker else s.without f }
  else none

def answer (s : Board) (env : DeviceEnv) (o : DevOp) : o.Ans :=
  match s.tracker.answer o with
  | some r => r.1
  | none => env 0 o

/-- The caller makes the call `o` and goes on with `k`. -/
def afterCall (s : Board) (caller : Caller) (env : DeviceEnv) (φ : Phase) (o : DevOp)
    (k : o.Ans → Prog DevOp DevOp.Ans (Int × CameraDevice)) : Board where
  tracker := s.tracker.after o
  threads := Function.update s.threads caller (some ⟨φ.after o (s.answer env o), k (s.answer env o)⟩)
  without := fun f => if caller = .request f then s.without f else (s.without f).after o

def next (plat : Platform) (s : Board) : Label → Option Board
  | .startRequest request dev =>
    s.start (.request request.frame_number) (CameraDevice.processCaptureRequest plat request dev)
  | .startSweep i sw dev => s.start (.sweep i) (CameraDevice.sweep plat sw dev)
  | .perform caller env =>
    match s.threads caller with
    | some ⟨φ, .call o k⟩ => some (s.afterCall caller env φ o k)
    | _ => none

def Reached (plat : Platform) : Board → Prop :=
  Reachable (fun s => s = init) (fun s l s' => next plat s l = some s') fun _ _ => True

/-! ## The invariant -/

structure Inv (s : Board) : Prop where
  requests : ∀ f th, s.threads (.request f) = some th →
    Obeys (requestProtocol f) (fun φ _ => φ.Untracked) th.phase th.prog
  sweeps : ∀ i th, s.threads (.sweep i) = some th →
    Asks InFlightTracker.NoAdd (fun _ _ => True) th.prog
  absent : ∀ f, (∀ th, s.threads (.request f) = some th → th.phase.Untracked) →
    s.tracker.lookup f = none
  others : ∀ f, (s.threads (.request f)).isSome → ∀ g, g ≠ f →
    s.tracker.lookup g = (s.without f).lookup g

theorem inv_init : Inv init where
  requests := fun _ _ h => by cases h
  sweeps := fun _ _ h => by cases h
  absent := fun _ _ => rfl
  others := fun _ h => by cases h

section

variable {plat : Platform} {s s' : Board}

/-- A thread after `caller` has moved is the one that moved or one as before. -/
theorem update_threads {caller caller' : Caller} {th th' : Thread}
    (h : Function.update s.threads caller (some th) caller' = some th') :
    caller' = caller ∧ th = th' ∨ caller' ≠ caller ∧ s.threads caller' = some th' := by
  by_cases heq : caller' = caller
  · subst heq
    exact .inl ⟨rfl, by simpa using h⟩
  · exact .inr ⟨heq, by simpa [heq] using h⟩

/-- A request that has returned is out of the tracker. -/
theorem Inv.returned (hs : Inv s) {f : BitVec 32} (hidle : s.idle (.request f) = true) :
    s.tracker.lookup f = none := by
  refine hs.absent f fun th hth => ?_
  have hobeys := hs.requests f th hth
  obtain ⟨φ, prog⟩ := th
  cases prog with
  | ret a => exact hobeys
  | call o k => simp [idle, hth] at hidle

/-- What a new thread has to promise. -/
def Starts (caller : Caller) (prog : Prog DevOp DevOp.Ans (Int × CameraDevice)) : Prop :=
  match caller with
  | .request f => Obeys (requestProtocol f) (fun φ _ => φ.Untracked) .fresh prog
  | .sweep _ => Asks InFlightTracker.NoAdd (fun _ _ => True) prog

theorem start_inv (hs : Inv s) {caller : Caller} {prog : Prog DevOp DevOp.Ans (Int × CameraDevice)}
    (h : s.start caller prog = some s') (hprog : Starts caller prog) : Inv s' := by
  unfold start at h
  by_cases hidle : s.idle caller = true
  · rw [if_pos hidle] at h
    obtain rfl := Option.some.inj h
    refine ⟨fun f th hth => ?_, fun i th hth => ?_, fun f hf => ?_, fun f hf g hg => ?_⟩
    · rcases update_threads hth with ⟨rfl, rfl⟩ | ⟨-, hth⟩
      · exact hprog
      · exact hs.requests f th hth
    · rcases update_threads hth with ⟨rfl, rfl⟩ | ⟨-, hth⟩
      · exact hprog
      · exact hs.sweeps i th hth
    · by_cases heq : caller = .request f
      · exact hs.returned (heq ▸ hidle)
      · exact hs.absent f fun th hth => hf th (by simpa [Ne.symm heq] using hth)
    · by_cases heq : caller = .request f
      · simp [heq]
      · simp only [if_neg heq]
        exact hs.others f (by simpa [Ne.symm heq] using hf) g hg
  · rw [if_neg hidle] at h
    cases h

variable {φ : Phase} {o : DevOp} {k : o.Ans → Prog DevOp DevOp.Ans (Int × CameraDevice)}

/-- The second trackers follow the calls of the others. -/
theorem others_after (hs : Inv s) {caller : Caller} (env : DeviceEnv)
    (hth : s.threads caller = some ⟨φ, .call o k⟩)
    (hown : ∀ f, caller = .request f → (requestProtocol f).allowed φ o) (f : BitVec 32)
    (hf : ((s.afterCall caller env φ o k).threads (.request f)).isSome) (g : BitVec 32) (hg : g ≠ f) :
    (s.tracker.after o).lookup g = ((s.afterCall caller env φ o k).without f).lookup g := by
  by_cases heq : caller = .request f
  · have hrest := hs.others f (by rw [← heq, hth]; rfl) g hg
    rw [InFlightTracker.lookup_after_other (hown f heq) hg, hrest]
    simp [afterCall, heq]
  · have hrest := hs.others f (by simpa [afterCall, Ne.symm heq] using hf) g hg
    simp only [afterCall, if_neg heq]
    exact InFlightTracker.lookup_after_congr hrest o

/-- A call of a request. -/
theorem request_inv (hs : Inv s) {f : BitVec 32} (env : DeviceEnv)
    (hth : s.threads (.request f) = some ⟨φ, .call o k⟩) :
    Inv (s.afterCall (.request f) env φ o k) := by
  obtain ⟨hallow, hk⟩ := obeys_step (hs.requests f _ hth) (s.answer env o)
  refine ⟨fun g th hg => ?_, fun i th hi => ?_, fun g hg => ?_, ?_⟩
  · rcases update_threads hg with ⟨heq, rfl⟩ | ⟨-, hg⟩
    · obtain rfl := Caller.request.inj heq
      exact hk
    · exact hs.requests g th hg
  · exact hs.sweeps i th (by simpa [afterCall] using hi)
  · by_cases heq : g = f
    · subst heq
      have hphase := hg _ (Function.update_self ..)
      refine InFlightTracker.lookup_after_own (s.answer env o) (fun hφ => ?_) hallow hphase
      refine hs.absent g fun th hg => ?_
      obtain rfl : ⟨φ, .call o k⟩ = th := Option.some.inj (hth.symm.trans hg)
      exact hφ
    · show (s.tracker.after o).lookup g = none
      rw [InFlightTracker.lookup_after_other hallow heq]
      exact hs.absent g fun th hth => hg th (by simpa [afterCall, heq] using hth)
  · refine others_after hs env hth fun g hg => ?_
    obtain rfl := Caller.request.inj hg
    exact hallow

/-- A call of a sweep. -/
theorem sweep_inv (hs : Inv s) {i : Nat} (env : DeviceEnv)
    (hth : s.threads (.sweep i) = some ⟨φ, .call o k⟩) : Inv (s.afterCall (.sweep i) env φ o k) := by
  obtain ⟨hcall, hk⟩ := hs.sweeps i _ hth
  refine ⟨fun g th hg => ?_, fun j th hj => ?_, fun g hg => ?_, ?_⟩
  · exact hs.requests g th (by simpa [afterCall] using hg)
  · rcases update_threads hj with ⟨-, rfl⟩ | ⟨-, hj⟩
    · exact hk _ trivial
    · exact hs.sweeps j th hj
  · refine InFlightTracker.lookup_after_none (hs.absent g fun th hth => ?_) hcall
    exact hg th (by simpa [afterCall] using hth)
  · exact others_after hs env hth fun g hg => by cases hg

theorem next_inv (hs : Inv s) {l : Label} (h : next plat s l = some s') : Inv s' := by
  cases l with
  | startRequest request dev =>
    exact start_inv hs h (CameraDevice.processCaptureRequest_obeys plat request dev)
  | startSweep i sw dev => exact start_inv hs h (CameraDevice.sweep_noAdd plat sw dev)
  | perform caller env =>
    unfold next at h
    cases hth : s.threads caller with
    | none => simp [hth] at h
    | some th =>
      obtain ⟨φ, prog⟩ := th
      cases prog with
      | ret a => simp [hth] at h
      | call o k =>
        obtain rfl : s.afterCall caller env φ o k = s' := by simpa [hth] using h
        cases caller with
        | request f => exact request_inv hs env hth
        | sweep i => exact sweep_inv hs env hth

theorem reached_inv (h : Reached plat s) : Inv s := by
  refine h.invariant ?_ fun _ _ _ hs _ hn => next_inv hs hn
  rintro s rfl
  exact inv_init

end

/-- **Requests leave nothing behind.** -/
theorem tracker_does_not_leak (plat : Platform) (s : Board) (h : Reached plat s) (f : BitVec 32)
    (th : Thread) (hth : s.threads (.request f) = some th) (ret : Int × CameraDevice)
    (hret : th.prog = .ret ret) :
    s.tracker.lookup f = none ∧ ∀ g, g ≠ f → s.tracker.lookup g = (s.without f).lookup g := by
  have hs := reached_inv h
  obtain ⟨φ, prog⟩ := th
  obtain rfl : prog = .ret ret := hret
  have hidle : s.idle (.request f) = true := by simp [idle, hth]
  exact ⟨hs.returned hidle, hs.others f (by simp [hth])⟩

/-- Two requests are tracked, a flush marks them, the first reads its mark and ends. -/
def markedTwo : List Label :=
  [.startRequest System.plainRequest System.idleDevice, .perform (.request 1) deviceGrants,
    .perform (.request 1) deviceGrants,
    .startRequest { System.plainRequest with frame_number := 2 } System.idleDevice,
    .perform (.request 2) deviceGrants, .perform (.request 2) deviceGrants,
    .startSweep 0 .flush System.idleDevice, .perform (.sweep 0) deviceGrants] ++
    List.replicate 4 (.perform (.request 1) deviceGrants)

/-- The tracker of a state in which request 1 has returned. -/
def trackerWhenReturned (s : Board) : Option InFlightTracker :=
  match s.threads (.request 1) with
  | some ⟨_, .ret _⟩ => some s.tracker
  | _ => none

theorem tracker_does_not_leak_marked : ∃ s, Reached flatPlatform s ∧ s.tracker = [⟨2, some 0, true⟩] ∧
    s.tracker.lookup 1 = none ∧ s.tracker.lookup 2 = (s.without 1).lookup 2 := by
  have hrun : (markedTwo.foldlM (fun s l => if True then next flatPlatform s l else none) init).bind
      trackerWhenReturned = some [⟨2, some 0, true⟩] := by decide +kernel
  obtain ⟨s, hs, hret⟩ := Option.bind_eq_some_iff.mp hrun
  have hreach : Reached flatPlatform s := reachable_foldlM markedTwo (.start rfl) hs
  unfold trackerWhenReturned at hret
  split at hret
  · next φ ret hth =>
    obtain ⟨h1, hothers⟩ := tracker_does_not_leak flatPlatform s hreach 1 _ hth ret rfl
    exact ⟨s, hreach, Option.some.inj hret, h1, hothers 2 (by decide)⟩
  · cases hret

end Board

end MochaHal.Camera
