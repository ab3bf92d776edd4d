import MochaHal.Lib.Latch
import MochaHal.Camera.DeviceFrame

/-! The focus trigger over sequences of capture requests.  The trigger of the last settings
stays in `af_trigger`, and `af_trigger_handled` keeps a trigger that was answered from
being answered again.  Only a cancel clears it, so it is a latch and not an edge detector:
`afTrigger_edges_iff` says on which sequences the two agree. -/

namespace MochaHal.Camera
open MochaHal.Prog MochaHal.Latch MochaHal.Demosaic

namespace CameraDevice

/-! ## One request -/

/-- What a request does for the focus. -/
inductive AfAction
  | startAfScan
  | cancelAf
  | nothing
  deriving DecidableEq, Repr

/-- The device after the mode and the trigger of the settings were taken. -/
def withSettings (settings : Option Settings) (d : CameraDevice) : CameraDevice :=
  match settings with
  | none => d
  | some s => { d with
      af_mode := s.afMode.getD d.af_mode, af_trigger := s.afTrigger.getD d.af_trigger }

/-- The branch that is taken. -/
def afAction (d : CameraDevice) : AfAction :=
  if d.pipeline.isSome ∧ (d.af_mode = AF_MODE_AUTO ∨ d.af_mode = AF_MODE_CONTINUOUS_PICTURE) then
    if d.af_trigger = AF_TRIGGER_START ∧ d.af_trigger_handled = false then .startAfScan
    else if d.af_trigger = AF_TRIGGER_CANCEL then .cancelAf
    else .nothing
  else .nothing

def perform (plat : Platform) : AfAction → Dev Unit
  | .startAfScan => do
    onPipeline (CameraPipeline.startAfScan plat) ()
    modify fun d => { d with af_trigger_handled := true }
  | .cancelAf => do
    onPipeline CameraPipeline.cancelAf ()
    modify fun d => { d with af_trigger_handled := false }
  | .nothing => pure ()

/-- The focus handling takes the settings and does one thing at most. -/
theorem handleAf_eq (plat : Platform) (settings : Option Settings) (d : CameraDevice) :
    handleAf plat settings d =
      perform plat (afAction (withSettings settings d)) (withSettings settings d) := by
  have hunfold : handleAf plat settings d = onlyIf
      ((withSettings settings d).pipeline.isSome ∧ ((withSettings settings d).af_mode = AF_MODE_AUTO ∨
        (withSettings settings d).af_mode = AF_MODE_CONTINUOUS_PICTURE))
      (if (withSettings settings d).af_trigger = AF_TRIGGER_START ∧
          (withSettings settings d).af_trigger_handled = false then perform plat .startAfScan
        else onlyIf ((withSettings settings d).af_trigger = AF_TRIGGER_CANCEL) (perform plat .cancelAf))
      (withSettings settings d) := rfl
  rw [hunfold]
  generalize withSettings settings d = d'
  simp only [onlyIf, afAction]
  split
  · split
    · rfl
    · split <;> rfl
  · rfl

/-- `af_trigger_handled` after the request. -/
def handledAfter : AfAction → Bool → Bool
  | .startAfScan, _ => true
  | .cancelAf, _ => false
  | .nothing, handled => handled

theorem perform_post (plat : Platform) (a : AfAction) (d : CameraDevice) :
    Post (fun _ _ => True) (fun r => r.2.settled =
      ({ d with af_trigger_handled := handledAfter a d.af_trigger_handled } : CameraDevice).settled)
      (perform plat a d) := by
  cases a with
  | startAfScan =>
    refine post_stateBind.mpr ((onPipeline_setup (CameraPipeline.startAfScan_confined plat).keeps _ d).mono ?_)
    rintro ⟨_, d'⟩ hkept
    rw [post_modify]
    simp_all [settled, sizing, handledAfter]
  | cancelAf =>
    refine post_stateBind.mpr ((onPipeline_setup CameraPipeline.cancelAf_confined.keeps _ d).mono ?_)
    rintro ⟨_, d'⟩ hkept
    rw [post_modify]
    simp_all [settled, sizing, handledAfter]
  | nothing => rfl

theorem serve_post (plat : Platform) (request : CaptureRequest) (buf : StreamBuffer) (d : CameraDevice) :
    let d' := withSettings request.settings d
    Post (fun _ _ => True) (fun r => r.2.settled =
      ({ d' with af_trigger_handled := handledAfter (afAction d') d'.af_trigger_handled } :
        CameraDevice).settled) (serve plat request buf d) := by
  intro d'
  rw [serve_eq]
  refine post_stateBind.mpr ?_
  rw [handleAf_eq]
  refine (perform_post plat (afAction d') d').mono ?_
  rintro ⟨_, d''⟩ hkept
  exact (serveRest_keeps plat request buf).post fun r hr => hr.trans hkept

/-! ## Sequences of requests -/

/-- A request with the answers that the calls made for it get. -/
structure AfTurn where
  env : DeviceEnv
  request : CaptureRequest

/-- The device after the request. -/
def afNext (plat : Platform) (d : CameraDevice) (t : AfTurn) : CameraDevice :=
  (run t.env 0 (processCaptureRequest plat t.request d)).2

/-- The device when request `k` arrives. -/
def stateAt (plat : Platform) (d : CameraDevice) (ts : List AfTurn) (k : Nat) : CameraDevice :=
  (ts.take k).foldl (afNext plat) d

/-- What request `k` does for the focus. -/
def actionAt (plat : Platform) (d : CameraDevice) (ts : List AfTurn) (k : Nat) : Option AfAction :=
  ts[k]?.map fun t => afAction (withSettings t.request.settings (stateAt plat d ts k))

/-- The request is served with the action `a` as its focus part, and then with the rest,
which does nothing for the focus. -/
def ServedWith (plat : Platform) (d : CameraDevice) (t : AfTurn) (a : AfAction) : Prop :=
  ∃ buf, t.request.output_buffers.head? = some buf ∧
    afNext plat d t = (run t.env 2 ((do
      perform plat a
      serveRest plat t.request buf) (withSettings t.request.settings d))).2

/-- The mode and the trigger of a request: what it does not set is as before. -/
def effective (before : Byte × Byte) (t : AfTurn) : Byte × Byte :=
  match t.request.settings with
  | none => before
  | some s => (s.afMode.getD before.1, s.afTrigger.getD before.2)

def effectiveAt (before : Byte × Byte) (ts : List AfTurn) (k : Nat) : Option (Byte × Byte) :=
  ts[k]?.map fun _ => (ts.take (k + 1)).foldl effective before

/-- The effective trigger of request `k`. -/
def triggerAt (before : Byte × Byte) (ts : List AfTurn) (k : Nat) : Option Byte :=
  (effectiveAt before ts k).map Prod.snd

/-- A device that serves requests. -/
structure Ready (d : CameraDevice) : Prop where
  initialized : d.is_initialized = true
  callbacks : d.callback_ops ≠ none
  pipeline : d.pipeline.isSome = true

/-- Every request has a buffer, is not of a flushed frame and has one of the two modes. -/
structure Processed (before : Byte × Byte) (ts : List AfTurn) : Prop where
  buffers : ∀ t ∈ ts, t.request.output_buffers ≠ []
  unmarked : ∀ t ∈ ts, t.env 0 (.isError t.request.frame_number) = false
  mode : ∀ k e, effectiveAt before ts k = some e →
    e.1 = AF_MODE_AUTO ∨ e.1 = AF_MODE_CONTINUOUS_PICTURE

section
variable {d : CameraDevice} {t : AfTurn} {ts : List AfTurn} {k : Nat}

theorem withSettings_af (d : CameraDevice) (t : AfTurn) :
    ((withSettings t.request.settings d).af_mode, (withSettings t.request.settings d).af_trigger) =
      effective (d.af_mode, d.af_trigger) t := by
  unfold withSettings effective
  split <;> rfl

theorem withSettings_kept (settings : Option Settings) (d : CameraDevice) :
    (withSettings settings d).af_trigger_handled = d.af_trigger_handled ∧
    (withSettings settings d).sizing = d.sizing ∧
    (withSettings settings d).is_initialized = d.is_initialized ∧
    (withSettings settings d).callback_ops = d.callback_ops ∧
    (withSettings settings d).pipeline = d.pipeline := by
  unfold withSettings
  split <;> exact ⟨rfl, rfl, rfl, rfl, rfl⟩

theorem sizing_pipeline {d d' : CameraDevice} (h : d'.sizing = d.sizing) :
    d'.pipeline.isSome = d.pipeline.isSome := by
  have hmap : d'.pipeline.map CameraPipeline.ispSetup = d.pipeline.map CameraPipeline.ispSetup :=
    congrArg Prod.fst h
  have hsome := congrArg Option.isSome hmap
  simpa using hsome

/-- A request that a ready device does not refuse gets to `serve`. -/
theorem next_eq (plat : Platform) (hd : d.Ready) (hbuf : t.request.output_buffers ≠ [])
    (hmark : t.env 0 (.isError t.request.frame_number) = false) :
    ∃ buf, t.request.output_buffers.head? = some buf ∧
      afNext plat d t = (run t.env 2 (serve plat t.request buf d)).2 := by
  obtain ⟨buf, rest, hbufs⟩ := List.exists_cons_of_ne_nil hbuf
  have hguard : ¬ (d.is_initialized = false ∨ d.callback_ops = none) := by
    simp [hd.initialized, hd.callbacks]
  refine ⟨buf, by rw [hbufs, List.head?_cons], ?_⟩
  have hprog : processCaptureRequest plat t.request d =
      Prog.call (.isError t.request.frame_number) fun marked =>
        ((if marked then (do
            let _ ← ask (.remove t.request.frame_number)
            return -EAGAIN)
          else do
            let _ ← ask (.add t.request.frame_number buf.buffer)
            serve plat t.request buf) : Dev Int) d := by
    unfold processCaptureRequest
    rw [hbufs]
    change (if d.is_initialized = false ∨ d.callback_ops = none then _ else _ : Dev Int) d = _
    rw [if_neg hguard]
    rfl
  rw [afNext, hprog, run, hmark]
  rfl

theorem next_settled (plat : Platform) (hd : d.Ready) (hbuf : t.request.output_buffers ≠ [])
    (hmark : t.env 0 (.isError t.request.frame_number) = false) :
    let d' := withSettings t.request.settings d
    (afNext plat d t).settled =
      ({ d' with af_trigger_handled := handledAfter (afAction d') d'.af_trigger_handled } :
        CameraDevice).settled := by
  obtain ⟨buf, -, hnext⟩ := next_eq plat hd hbuf hmark
  rw [hnext]
  exact post_run (serve_post plat t.request buf d) (fun _ _ => trivial) 2

theorem handledAfter_eq (hp : d.pipeline.isSome = true)
    (hmode : d.af_mode = AF_MODE_AUTO ∨ d.af_mode = AF_MODE_CONTINUOUS_PICTURE) :
    handledAfter (afAction d) d.af_trigger_handled = true ↔
      d.af_trigger = AF_TRIGGER_START ∨
        ¬ d.af_trigger = AF_TRIGGER_CANCEL ∧ d.af_trigger_handled = true := by
  have hboth : AF_TRIGGER_START ≠ AF_TRIGGER_CANCEL := by decide
  rw [afAction, if_pos ⟨hp, hmode⟩]
  by_cases hstart : d.af_trigger = AF_TRIGGER_START
  · cases hh : d.af_trigger_handled <;> simp [hstart, handledAfter, hboth]
  · by_cases hcancel : d.af_trigger = AF_TRIGGER_CANCEL
    · simp [hcancel, hboth.symm, handledAfter]
    · simp [hstart, hcancel, handledAfter]

theorem stateAt_succ (plat : Platform) (d : CameraDevice) (ht : ts[k]? = some t) :
    stateAt plat d ts (k + 1) = afNext plat (stateAt plat d ts k) t := by
  simp [stateAt, List.take_add_one, ht]

theorem effectiveAt_some (before : Byte × Byte) (ht : ts[k]? = some t) :
    effectiveAt before ts k = some (effective ((ts.take k).foldl effective before) t) := by
  simp [effectiveAt, List.take_add_one, ht]

end

/-- Request `k` has the effective trigger `trigger`. -/
def Triggers (d : CameraDevice) (ts : List AfTurn) (trigger : Byte) (k : Nat) : Prop :=
  triggerAt (d.af_mode, d.af_trigger) ts k = some trigger

instance (d : CameraDevice) (ts : List AfTurn) (trigger : Byte) (k : Nat) :
    Decidable (Triggers d ts trigger k) := inferInstanceAs (Decidable (_ = _))

/-- The device when request `k` arrives: it is ready, it has the effective settings, and
`af_trigger_handled` is the latch that starts set and cancels clear. -/
structure AfInv (plat : Platform) (d : CameraDevice) (ts : List AfTurn) (k : Nat) : Prop where
  ready : (stateAt plat d ts k).Ready
  fields : ((stateAt plat d ts k).af_mode, (stateAt plat d ts k).af_trigger) =
    (ts.take k).foldl effective (d.af_mode, d.af_trigger)
  handled : (stateAt plat d ts k).af_trigger_handled = true ↔
    Held (Triggers d ts AF_TRIGGER_START) (Triggers d ts AF_TRIGGER_CANCEL) k

section
variable {plat : Platform} {d : CameraDevice} {t : AfTurn} {ts : List AfTurn} {k : Nat}

/-- The settings that request `k` works with are the effective ones. -/
theorem AfInv.effective (h : AfInv plat d ts k) (ht : ts[k]? = some t) :
    effectiveAt (d.af_mode, d.af_trigger) ts k =
      some ((withSettings t.request.settings (stateAt plat d ts k)).af_mode,
        (withSettings t.request.settings (stateAt plat d ts k)).af_trigger) := by
  rw [effectiveAt_some _ ht, withSettings_af, h.fields]

theorem AfInv.triggers (h : AfInv plat d ts k) (ht : ts[k]? = some t) (trigger : Byte) :
    Triggers d ts trigger k ↔
      (withSettings t.request.settings (stateAt plat d ts k)).af_trigger = trigger := by
  simp [Triggers, triggerAt, h.effective ht]

theorem triggers_lt {trigger : Byte} (h : Triggers d ts trigger k) : k < ts.length := by
  by_contra hge
  have hnone : ts[k]? = none := List.getElem?_eq_none (by omega)
  simp [Triggers, triggerAt, effectiveAt, hnone] at h

theorem AfInv.step (hp : Processed (d.af_mode, d.af_trigger) ts) (h : AfInv plat d ts k)
    (ht : ts[k]? = some t) : AfInv plat d ts (k + 1) := by
  have hmem : t ∈ ts := List.mem_of_getElem? ht
  have hsettled := next_settled plat h.ready (hp.buffers t hmem) (hp.unmarked t hmem)
  have hstart := h.triggers ht AF_TRIGGER_START
  have hcancel := h.triggers ht AF_TRIGGER_CANCEL
  have hmode := hp.mode k _ (h.effective ht)
  rw [← stateAt_succ plat d ht] at hsettled
  obtain ⟨hhandled, hsizing, hinit, hcall, hpipe⟩ :=
    withSettings_kept t.request.settings (stateAt plat d ts k)
  have haf := withSettings_af (stateAt plat d ts k) t
  generalize withSettings t.request.settings (stateAt plat d ts k) = d' at *
  simp only [settled, Prod.mk.injEq] at hsettled
  obtain ⟨hs, ⟨hm, htr, hh⟩, hi, hc⟩ := hsettled
  have hpipeline : d'.pipeline.isSome = true := by
    rw [hpipe]
    exact h.ready.pipeline
  refine ⟨⟨?_, ?_, ?_⟩, ?_, ?_⟩
  · rw [hi, hinit]
    exact h.ready.initialized
  · rw [hc, hcall]
    exact h.ready.callbacks
  · rw [sizing_pipeline hs]
    exact hpipeline
  · rw [hm, htr, haf, h.fields, List.take_add_one, ht]
    simp
  · rw [hh, handledAfter_eq hpipeline hmode, hhandled, h.handled, Held, hstart, hcancel]

theorem stateAt_inv (hd : d.Ready) (hclear : d.af_trigger_handled = false)
    (hp : Processed (d.af_mode, d.af_trigger) ts) (hk : k ≤ ts.length) : AfInv plat d ts k := by
  induction k with
  | zero => exact ⟨hd, rfl, by simp [stateAt, hclear, Held]⟩
  | succ k ih =>
    have ht : ts[k]? = some (ts.get ⟨k, hk⟩) := List.getElem?_eq_getElem hk
    exact (ih (by omega)).step hp ht

/-- What `actionAt` says of a request is what is done for it. -/
theorem actionAt_performed (plat : Platform) (hd : d.Ready) (hclear : d.af_trigger_handled = false)
    (hp : Processed (d.af_mode, d.af_trigger) ts) (ht : ts[k]? = some t) :
    ∃ a, actionAt plat d ts k = some a ∧ ServedWith plat (stateAt plat d ts k) t a := by
  have hk : k < ts.length := (List.getElem?_eq_some_iff.mp ht).1
  have hinv : AfInv plat d ts k := stateAt_inv hd hclear hp hk.le
  have hmem : t ∈ ts := List.mem_of_getElem? ht
  obtain ⟨buf, hhead, hnext⟩ := next_eq plat hinv.ready (hp.buffers t hmem) (hp.unmarked t hmem)
  refine ⟨_, by rw [actionAt, ht, Option.map_some], buf, hhead, ?_⟩
  rw [hnext, serve_eq]
  change (run t.env 2 (handleAf plat t.request.settings (stateAt plat d ts k) >>=
    fun r => serveRest plat t.request buf r.2)).2 = _
  rw [handleAf_eq]
  rfl

/-- A scan is made for a start that finds the latch clear, a cancel for every cancel. -/
theorem actionAt_iff (plat : Platform) (hd : d.Ready) (hclear : d.af_trigger_handled = false)
    (hp : Processed (d.af_mode, d.af_trigger) ts) (k : Nat) :
    (actionAt plat d ts k = some .startAfScan ↔ Triggers d ts AF_TRIGGER_START k ∧
      ¬ Held (Triggers d ts AF_TRIGGER_START) (Triggers d ts AF_TRIGGER_CANCEL) k) ∧
    (actionAt plat d ts k = some .cancelAf ↔ Triggers d ts AF_TRIGGER_CANCEL k) := by
  cases ht : ts[k]? with
  | none => simp [actionAt, Triggers, triggerAt, effectiveAt, ht]
  | some t =>
    have hk : k < ts.length := (List.getElem?_eq_some_iff.mp ht).1
    have hinv : AfInv plat d ts k := stateAt_inv hd hclear hp hk.le
    have hmode := hp.mode k _ (hinv.effective ht)
    have hkept := withSettings_kept t.request.settings (stateAt plat d ts k)
    have hboth : AF_TRIGGER_START ≠ AF_TRIGGER_CANCEL := by decide
    rw [hinv.triggers ht, hinv.triggers ht, ← hinv.handled, ← hkept.1]
    have hpipeline := hinv.ready.pipeline
    rw [← hkept.2.2.2.2] at hpipeline
    simp only [actionAt, ht, Option.map_some, Option.some.injEq]
    generalize withSettings t.request.settings (stateAt plat d ts k) = d' at *
    rw [afAction, if_pos ⟨hpipeline, hmode⟩]
    by_cases hstart : d'.af_trigger = AF_TRIGGER_START
    · cases hh : d'.af_trigger_handled <;> simp [hstart, hboth]
    · by_cases hcancel : d'.af_trigger = AF_TRIGGER_CANCEL
      · simp [hcancel, hboth.symm]
      · simp [hstart, hcancel]

end

/-! ## Edges -/

/-- Each run of starts makes one scan, at its first request, and each cancel one cancel. -/
def ActsAtEdges (plat : Platform) (d : CameraDevice) (ts : List AfTurn) : Prop :=
  ∀ k, (actionAt plat d ts k = some .startAfScan ↔ Edge (Triggers d ts AF_TRIGGER_START) k) ∧
    (actionAt plat d ts k = some .cancelAf ↔ Triggers d ts AF_TRIGGER_CANCEL k)

/-- **When the focus trigger acts at edges**: there is a cancel between every two runs of
starts.  The device may be any that has not answered a start yet, as a new one.  The
actions are those of the code: the focus part of a request performs its action and
nothing else, and so each request of the run does. -/
theorem afTrigger_edges_iff (plat : Platform) (d : CameraDevice) (ts : List AfTurn) (hd : d.Ready)
    (hclear : d.af_trigger_handled = false) (hp : Processed (d.af_mode, d.af_trigger) ts) :
    (∀ settings d', handleAf plat settings d' =
      perform plat (afAction (withSettings settings d')) (withSettings settings d')) ∧
    (∀ k t, ts[k]? = some t →
      ∃ a, actionAt plat d ts k = some a ∧ ServedWith plat (stateAt plat d ts k) t a) ∧
    (ActsAtEdges plat d ts ↔
      ResetBetween (Triggers d ts AF_TRIGGER_START) (Triggers d ts AF_TRIGGER_CANCEL)) := by
  refine ⟨handleAf_eq plat, fun k t ht => actionAt_performed plat hd hclear hp ht, ?_⟩
  rw [← fires_at_edges_iff]
  constructor
  · intro hedges k
    rw [← (actionAt_iff plat hd hclear hp k).1]
    exact (hedges k).1
  · intro hfires k
    refine ⟨?_, (actionAt_iff plat hd hclear hp k).2⟩
    rw [(actionAt_iff plat hd hclear hp k).1]
    exact hfires k

/-! ### Two starts with an idle trigger between them -/

/-- A device that is ready, with a pipeline that was just made. -/
def readyDevice : CameraDevice :=
  { CameraDevice.init 0 with
    is_initialized := true
    callback_ops := some true
    pipeline := some (.new 0 (pipelineConfig 0 ⟨0, .output, 2, 2, .rgba8888, 2⟩) fun _ => 0) }

theorem readyDevice_ready : readyDevice.Ready := ⟨rfl, by decide, rfl⟩

/-- A request with the trigger given, or without settings. -/
def afRequest (trigger : Option Byte) : AfTurn :=
  ⟨deviceGrants, ⟨1, trigger.map fun t => ⟨some AF_MODE_AUTO, some t⟩,
    [⟨⟨0, .output, 2, 2, .rgba8888, 2⟩, some 7, -1, -1, .ok⟩]⟩⟩

theorem afRequests_processed (triggers : List (Option Byte)) :
    Processed (AF_MODE_AUTO, AF_TRIGGER_IDLE) (triggers.map afRequest) := by
  have hmode : ∀ (l : List (Option Byte)) (before : Byte × Byte), before.1 = AF_MODE_AUTO →
      ((l.map afRequest).foldl effective before).1 = AF_MODE_AUTO := by
    intro l
    induction l with
    | nil => exact fun _ h => h
    | cons o l ih =>
      intro before h
      refine ih _ ?_
      cases o with
      | none => exact h
      | some t => rfl
  refine ⟨?_, ?_, ?_⟩
  · intro t ht
    obtain ⟨o, -, rfl⟩ := List.mem_map.mp ht
    exact List.cons_ne_nil _ _
  · intro t ht
    obtain ⟨o, -, rfl⟩ := List.mem_map.mp ht
    rfl
  · intro k e he
    obtain ⟨-, -, rfl⟩ := Option.map_eq_some_iff.mp he
    rw [← List.map_take]
    exact .inl (hmode _ _ rfl)

theorem afTrigger_edges_cancelled : ActsAtEdges flatPlatform readyDevice
    ([some AF_TRIGGER_START, none, some AF_TRIGGER_CANCEL, some AF_TRIGGER_START].map afRequest) := by
  refine (afTrigger_edges_iff flatPlatform readyDevice _ readyDevice_ready rfl
    (afRequests_processed _)).2.2.mpr ?_
  intro i j k hij hjk hi hk hj
  have hlen : k < 4 := triggers_lt hk
  obtain rfl | rfl : k = 2 ∨ k = 3 := by omega
  · exact absurd hk (by decide)
  · exact ⟨2, by omega, by decide, by decide⟩

/-- The second start is taken for the one that was answered. -/
theorem second_start_ignored : ¬ ∀ (plat : Platform) (d : CameraDevice) (ts : List AfTurn), d.Ready →
    d.af_trigger_handled = false → Processed (d.af_mode, d.af_trigger) ts → ActsAtEdges plat d ts := by
  intro h
  have hp := afRequests_processed [some AF_TRIGGER_START, some AF_TRIGGER_IDLE, some AF_TRIGGER_START]
  have hedges := h flatPlatform readyDevice _ readyDevice_ready rfl hp 2
  have hscan := (actionAt_iff flatPlatform readyDevice_ready rfl hp 2).1
  rw [hedges.1] at hscan
  have hedge : Edge (Triggers readyDevice ([some AF_TRIGGER_START, some AF_TRIGGER_IDLE,
      some AF_TRIGGER_START].map afRequest) AF_TRIGGER_START) 2 := by
    refine ⟨by decide, ?_⟩
    intro j hj
    obtain rfl : j = 1 := by omega
    decide
  refine (hscan.mp hedge).2 (held_iff.mpr ⟨0, by decide, by decide, ?_⟩)
  intro i h1 h2
  obtain rfl : i = 1 := by omega
  decide

end CameraDevice

end MochaHal.Camera
