import MochaHal.Audio.Routing

/-! The voice trigger state machine of `audio/audio_hw.c`.  It takes its stream from
the configuration manager when it is armed and gives it back when it is disarmed.

The state machine sees of a stream its name, its count and its maximum (`StreamRef`);
`openNamed_refs`, `applyRoute_refs` and `releaseStream_refs` say what the manager's
calls do to these, and `reference_held` that a run holds one reference outside the
idle states, as long as it is not enabled in `eVoiceTriggerFired`. -/

namespace MochaHal.Audio
open MochaHal.Reach

/-! ## The source -/

inductive VoiceState
  | eVoiceNone
  | eVoiceTriggerIdle
  | eVoiceTriggerArmed
  | eVoiceTriggerFired
  | eVoiceRecogIdle
  | eVoiceRecogArmed
  | eVoiceRecogFired
  | eVoiceRecogAudio
  | eVoiceRecogReArm
  deriving DecidableEq, Repr

def kVoiceTriggerStreamName : String := "voice trigger"
def kVoiceRecogStreamName : String := "voice recognition"

/-- The fields of `audio_device` that the voice trigger uses.  A stream is named by its
index, a null `voice_trig_stream` is `none`. -/
structure AudioDevice where
  cm : ConfigMgr
  voice_st : VoiceState
  voice_trig_stream : Option Nat
  voice_trig_mic : Mask
  deriving DecidableEq, Repr

/-- A reference taken from the manager or given back. -/
inductive RefOp
  | acquire (i : Nat)
  | release (i : Nat)
  deriving DecidableEq, Repr

section Source
variable (all : AllDevices)

def isNamedStreamDefined (cm : ConfigMgr) (name : String) : Bool :=
  (cm.streams.findIdx? fun s => s.name = some name).isSome

def voiceTriggerInit (adev : AudioDevice) : AudioDevice :=
  if isNamedStreamDefined adev.cm kVoiceRecogStreamName then
    { adev with voice_st := .eVoiceRecogIdle }
  else if isNamedStreamDefined adev.cm kVoiceTriggerStreamName then
    { adev with voice_st := .eVoiceTriggerIdle }
  else { adev with voice_st := .eVoiceNone }

def doVoiceTriggerOpenStream (adev : AudioDevice) (streamName : String) : AudioDevice × List RefOp :=
  let r := getNamedStream adev.cm streamName
  let adev := { adev with cm := r.1, voice_trig_stream := r.2.1 }
  match r.2.1 with
  | none => (adev, [])
  | some i =>
    let mic := if adev.voice_trig_mic = 0 then AUDIO_DEVICE_IN_BUILTIN_MIC else adev.voice_trig_mic
    ({ adev with cm := (adev.cm.step all (.applyRoute i mic)).1 }, [.acquire i])

/-- The last statement of the source compares `voice_trig_stream` with `NULL` where it
means to assign, so the pointer is kept. -/
def doVoiceTriggerCloseStream (adev : AudioDevice) : AudioDevice × List RefOp :=
  match adev.voice_trig_stream with
  | none => (adev, [])
  | some i =>
    let cm := (adev.cm.step all (.applyRoute i 0)).1
    ({ adev with cm := (cm.step all (.releaseStream i)).1 }, [.release i])

/-- The state that an event leads to once its stream calls are made. -/
def goTo (st : VoiceState) (r : AudioDevice × List RefOp) : AudioDevice × List RefOp :=
  ({ r.1 with voice_st := st }, r.2)

def voiceTriggerEnable (adev : AudioDevice) : AudioDevice × List RefOp :=
  match adev.voice_st with
  | .eVoiceNone => (adev, [])
  | .eVoiceTriggerIdle | .eVoiceTriggerFired =>
    goTo .eVoiceTriggerArmed (doVoiceTriggerOpenStream all adev kVoiceTriggerStreamName)
  | .eVoiceTriggerArmed => (adev, [])
  | .eVoiceRecogIdle =>
    goTo .eVoiceRecogArmed (doVoiceTriggerOpenStream all adev kVoiceRecogStreamName)
  | .eVoiceRecogArmed | .eVoiceRecogFired | .eVoiceRecogReArm => (adev, [])
  | .eVoiceRecogAudio => goTo .eVoiceRecogReArm (adev, [])

def voiceTriggerDisable (adev : AudioDevice) : AudioDevice × List RefOp :=
  match adev.voice_st with
  | .eVoiceNone | .eVoiceTriggerIdle => (adev, [])
  | .eVoiceTriggerFired | .eVoiceTriggerArmed =>
    goTo .eVoiceTriggerIdle (doVoiceTriggerCloseStream all adev)
  | .eVoiceRecogIdle => (adev, [])
  | .eVoiceRecogArmed => goTo .eVoiceRecogIdle (doVoiceTriggerCloseStream all adev)
  | .eVoiceRecogFired | .eVoiceRecogAudio => (adev, [])
  | .eVoiceRecogReArm => goTo .eVoiceRecogAudio (adev, [])

def voiceTriggerTriggered (adev : AudioDevice) : AudioDevice × List RefOp :=
  match adev.voice_st with
  | .eVoiceTriggerArmed => goTo .eVoiceTriggerFired (adev, [])
  | .eVoiceRecogArmed => goTo .eVoiceRecogFired (adev, [])
  | _ => (adev, [])

def voiceTriggerAudioStartedLocked (adev : AudioDevice) : AudioDevice × List RefOp :=
  match adev.voice_st with
  | .eVoiceRecogFired => goTo .eVoiceRecogAudio (adev, [])
  | _ => (adev, [])

def voiceTriggerAudioEndedLocked (adev : AudioDevice) : AudioDevice × List RefOp :=
  match adev.voice_st with
  | .eVoiceRecogAudio => goTo .eVoiceRecogIdle (doVoiceTriggerCloseStream all adev)
  | .eVoiceRecogReArm => goTo .eVoiceRecogArmed (adev, [])
  | _ => (adev, [])

/-! ## Runs -/

/-- The events; `mic` is the other parameter that `voice_trigger_set_params` reads. -/
inductive VoiceEvent
  | enable
  | disable
  | triggered
  | audioStarted
  | audioEnded
  | mic (device : Mask)
  deriving DecidableEq, Repr

def AudioDevice.handle (adev : AudioDevice) : VoiceEvent → AudioDevice × List RefOp
  | .enable => voiceTriggerEnable all adev
  | .disable => voiceTriggerDisable all adev
  | .triggered => voiceTriggerTriggered adev
  | .audioStarted => voiceTriggerAudioStartedLocked adev
  | .audioEnded => voiceTriggerAudioEndedLocked all adev
  | .mic device => ({ adev with voice_trig_mic := device }, [])

/-- The device with the references taken and given back so far. -/
structure VoiceRun where
  adev : AudioDevice
  log : List RefOp
  deriving DecidableEq, Repr

def VoiceRun.step (s : VoiceRun) (e : VoiceEvent) : VoiceRun :=
  let r := s.adev.handle all e
  ⟨r.1, s.log ++ r.2⟩

end Source

/-- References to stream `i` acquired minus those released. -/
def held (i : Nat) (log : List RefOp) : Int :=
  log.count (.acquire i) - log.count (.release i)

/-- The references that a state stands for. -/
def VoiceState.owes : VoiceState → Int
  | .eVoiceNone | .eVoiceTriggerIdle | .eVoiceRecogIdle => 0
  | _ => 1

/-- The stream of the mode that a state belongs to. -/
def VoiceState.streamName : VoiceState → String
  | .eVoiceTriggerIdle | .eVoiceTriggerArmed | .eVoiceTriggerFired => kVoiceTriggerStreamName
  | _ => kVoiceRecogStreamName

/-! ## What the manager's calls do to the counts -/

/-- What the state machine sees of a stream. -/
structure StreamRef where
  name : Option String
  count : Int
  max : Int
  deriving DecidableEq, Repr

def Stream.ref (s : Stream) : StreamRef := ⟨s.name, s.ref_count, s.max_ref_count⟩

def ConfigMgr.refs (cm : ConfigMgr) : List StreamRef := cm.streams.map Stream.ref

/-- The stream that `find_named_stream` finds. -/
def findNamed (refs : List StreamRef) (name : String) : Option Nat :=
  refs.findIdx? fun r => r.name = some name

/-- One stream's count changed by `d`. -/
def addRef (refs : List StreamRef) (i : Nat) (d : Int) : List StreamRef :=
  refs.modify i fun r => { r with count := r.count + d }

section Refs
variable {cm : ConfigMgr} {refs : List StreamRef} {i j : Nat} {name : String}

theorem refs_getElem? (i : Nat) : cm.refs[i]? = cm.streams[i]?.map Stream.ref := by
  simp [ConfigMgr.refs]

theorem findNamed_refs : cm.streams.findIdx? (fun s => s.name = some name) = findNamed cm.refs name := by
  rw [findNamed, ConfigMgr.refs, List.findIdx?_map]
  rfl

theorem findNamed_addRef (d : Int) : findNamed (addRef refs i d) name = findNamed refs name := by
  unfold findNamed addRef
  induction refs generalizing i with
  | nil => simp
  | cons r rest ih =>
    cases i with
    | zero => simp [List.findIdx?_cons]
    | succ i =>
      simp only [List.modify_succ_cons, List.findIdx?_cons]
      rw [ih]

theorem addRef_getElem? (d : Int) {r : StreamRef} (h : refs[i]? = some r) :
    (addRef refs i d)[i]? = some { r with count := r.count + d } := by
  simp [addRef, h]

theorem refs_set {s s' : Stream} (devices : List Device) (hs : cm.streams[i]? = some s) (d : Int)
    (h : s'.ref = { s.ref with count := s.ref.count + d }) :
    (⟨devices, cm.streams.set i s'⟩ : ConfigMgr).refs = addRef cm.refs i d := by
  apply List.ext_getElem?
  intro j
  rw [refs_getElem?, addRef, List.getElem?_modify, refs_getElem?, List.getElem?_set]
  by_cases hij : i = j
  · subst hij
    obtain ⟨hlt, hget⟩ := List.getElem?_eq_some_iff.mp hs
    simp [hlt, hget, h]
  · simp [hij]

theorem addRef_zero : addRef refs i 0 = refs := by
  apply List.ext_getElem?
  intro j
  rw [addRef, List.getElem?_modify]
  cases refs[j]? with
  | none => simp
  | some r => simp

theorem applyRoute_refs (all : AllDevices) (m : Mask) :
    (cm.step all (.applyRoute i m)).1.refs = cm.refs := by
  simp only [ConfigMgr.step]
  cases hs : cm.streams[i]? with
  | none => rfl
  | some s =>
    simp only [applyRoute]
    cases newDevices all s m with
    | none => rfl
    | some new =>
      rw [← @addRef_zero cm.refs i]
      exact refs_set _ hs 0 (by simp [Stream.ref])

theorem releaseStream_refs (all : AllDevices) :
    (cm.step all (.releaseStream i)).1.refs = addRef cm.refs i (-1) := by
  simp only [ConfigMgr.step]
  cases hs : cm.streams[i]? with
  | none =>
    have hlen : cm.refs.length ≤ i := by
      simpa [ConfigMgr.refs] using List.getElem?_eq_none_iff.mp hs
    simp only [addRef]
    rw [List.modify_eq_self hlen]
  | some s =>
    simp only [releaseStream]
    split
    · exact refs_set _ hs (-1) (by simp [Stream.ref]; omega)
    · exact refs_set _ hs (-1) (by simp [Stream.ref]; omega)

/-- A named stream below its maximum is opened and counted. -/
theorem openNamed_refs {r : StreamRef} (hfind : findNamed cm.refs name = some i)
    (hentry : cm.refs[i]? = some r) (hmax : r.count < r.max) :
    (getNamedStream cm name).2.1 = some i ∧ (getNamedStream cm name).1.refs = addRef cm.refs i 1 := by
  rw [refs_getElem?] at hentry
  obtain ⟨s, hs, rfl⟩ := Option.map_eq_some_iff.mp hentry
  have hlt : s.ref_count < s.max_ref_count := hmax
  simp only [getNamedStream, findNamed_refs, hfind, hs, openStream, hlt, ↓reduceIte, true_and]
  exact refs_set _ hs 1 rfl

end Refs

/-! ## One event -/

section Step
variable {all : AllDevices} {adev : AudioDevice} {i : Nat} {name : String} {r : StreamRef}

theorem openStream_spec (all : AllDevices) (hfind : findNamed adev.cm.refs name = some i)
    (hentry : adev.cm.refs[i]? = some r) (hmax : r.count < r.max) :
    let o := doVoiceTriggerOpenStream all adev name
    o.1.voice_trig_stream = some i ∧ o.1.cm.refs = addRef adev.cm.refs i 1 ∧ o.2 = [.acquire i] := by
  obtain ⟨hget, hrefs⟩ := openNamed_refs hfind hentry hmax
  simp only [doVoiceTriggerOpenStream, hget]
  exact ⟨trivial, (applyRoute_refs all _).trans hrefs, trivial⟩

theorem closeStream_spec (all : AllDevices) (hstream : adev.voice_trig_stream = some i) :
    let o := doVoiceTriggerCloseStream all adev
    o.1.cm.refs = addRef adev.cm.refs i (-1) ∧ o.2 = [.release i] := by
  simp only [doVoiceTriggerCloseStream, hstream]
  rw [releaseStream_refs, applyRoute_refs]
  exact ⟨rfl, trivial⟩

@[simp] theorem held_nil (j : Nat) : held j [] = 0 := by
  simp [held]

theorem held_append (j : Nat) (log log' : List RefOp) :
    held j (log ++ log') = held j log + held j log' := by
  simp only [held, List.count_append]
  omega

@[simp] theorem held_acquire (j : Nat) : held j [.acquire i] = if j = i then 1 else 0 := by
  by_cases h : j = i
  · simp [held, h]
  · have h' : i ≠ j := fun e => h e.symm
    simp [held, h, h']

@[simp] theorem held_release (j : Nat) : held j [.release i] = if j = i then -1 else 0 := by
  by_cases h : j = i
  · simp [held, h]
  · have h' : i ≠ j := fun e => h e.symm
    simp [held, h, h']

/-- What a run keeps: stream `i` has the count `r` had at the start plus what the state
owes, and that is what the log holds. -/
structure VoiceInv (name : String) (i : Nat) (r : StreamRef) (s : VoiceRun) : Prop where
  mode : s.adev.voice_st ≠ .eVoiceNone ∧ s.adev.voice_st.streamName = name
  found : findNamed s.adev.cm.refs name = some i
  entry : s.adev.cm.refs[i]? = some { r with count := r.count + s.adev.voice_st.owes }
  below : r.count < r.max
  stream : s.adev.voice_st.owes = 1 → s.adev.voice_trig_stream = some i
  balance : ∀ j, held j s.log = if j = i then s.adev.voice_st.owes else 0

variable {s : VoiceRun} {st : VoiceState}

/-- An event without stream calls, between states that owe the same. -/
theorem VoiceInv.stay (h : VoiceInv name i r s) {adev' : AudioDevice} (hcm : adev'.cm = s.adev.cm)
    (hstream : adev'.voice_trig_stream = s.adev.voice_trig_stream)
    (howes : adev'.voice_st.owes = s.adev.voice_st.owes)
    (hmode : adev'.voice_st ≠ .eVoiceNone ∧ adev'.voice_st.streamName = s.adev.voice_st.streamName) :
    VoiceInv name i r ⟨adev', s.log ++ []⟩ := by
  constructor
  · exact ⟨hmode.1, hmode.2.trans h.mode.2⟩
  · simpa [hcm] using h.found
  · simpa [hcm, howes] using h.entry
  · exact h.below
  · simpa [howes, hstream] using h.stream
  · simpa [howes] using h.balance

theorem VoiceInv.same (h : VoiceInv name i r s) : VoiceInv name i r ⟨s.adev, s.log ++ []⟩ :=
  h.stay rfl rfl rfl ⟨h.mode.1, rfl⟩

theorem VoiceInv.move (h : VoiceInv name i r s) {old : VoiceState} (hst : s.adev.voice_st = old)
    (howes : st.owes = old.owes) (hmode : st ≠ .eVoiceNone ∧ st.streamName = old.streamName) :
    VoiceInv name i r ⟨(goTo st (s.adev, [])).1, s.log ++ []⟩ := by
  subst hst
  exact h.stay rfl rfl howes hmode

/-- Arming takes the reference. -/
theorem VoiceInv.arm (h : VoiceInv name i r s) (hidle : s.adev.voice_st.owes = 0)
    (howes : st.owes = 1) (hmode : st ≠ .eVoiceNone ∧ st.streamName = name) :
    let o := goTo st (doVoiceTriggerOpenStream all s.adev name)
    VoiceInv name i r ⟨o.1, s.log ++ o.2⟩ := by
  have hentry := h.entry
  rw [hidle, Int.add_zero] at hentry
  obtain ⟨hstream, hrefs, hlog⟩ := openStream_spec all h.found hentry h.below
  constructor
  · exact hmode
  · simpa only [goTo, hrefs, findNamed_addRef] using h.found
  · simpa only [goTo, hrefs, howes] using addRef_getElem? 1 hentry
  · exact h.below
  · exact fun _ => hstream
  · intro j
    simp only [goTo, hlog, held_append, held_acquire, h.balance, hidle, howes]
    split <;> rfl

/-- Disarming gives it back. -/
theorem VoiceInv.disarm (h : VoiceInv name i r s) (harmed : s.adev.voice_st.owes = 1)
    (howes : st.owes = 0) (hmode : st ≠ .eVoiceNone ∧ st.streamName = name) :
    let o := goTo st (doVoiceTriggerCloseStream all s.adev)
    VoiceInv name i r ⟨o.1, s.log ++ o.2⟩ := by
  obtain ⟨hrefs, hlog⟩ := closeStream_spec all (h.stream harmed)
  have hentry := addRef_getElem? (-1) h.entry
  constructor
  · exact hmode
  · simpa only [goTo, hrefs, findNamed_addRef] using h.found
  · simpa [goTo, hrefs, howes, harmed] using hentry
  · exact h.below
  · intro h1
    rw [show (goTo st (doVoiceTriggerCloseStream all s.adev)).1.voice_st = st from rfl, howes] at h1
    cases h1
  · intro j
    simp only [goTo, hlog, held_append, held_release, h.balance, harmed, howes]
    split <;> rfl

/-- **Every event keeps the invariant**, unless it enables a trigger that has fired. -/
theorem VoiceInv.step (h : VoiceInv name i r s) (e : VoiceEvent)
    (hok : e = .enable → s.adev.voice_st ≠ .eVoiceTriggerFired) :
    VoiceInv name i r (s.step all e) := by
  obtain ⟨hnone, hname⟩ := h.mode
  simp only [VoiceRun.step]
  cases e with
  | mic device => exact h.stay rfl rfl rfl ⟨hnone, rfl⟩
  | enable =>
    have hfired := hok rfl
    simp only [AudioDevice.handle, voiceTriggerEnable]
    cases hst : s.adev.voice_st <;> rw [hst] at hnone hname hfired
    case eVoiceNone => exact absurd rfl hnone
    case eVoiceTriggerIdle =>
      subst hname
      exact h.arm (by rw [hst]; rfl) rfl ⟨by decide, rfl⟩
    case eVoiceTriggerFired => exact absurd rfl hfired
    case eVoiceRecogIdle =>
      subst hname
      exact h.arm (by rw [hst]; rfl) rfl ⟨by decide, rfl⟩
    case eVoiceRecogAudio => exact h.move hst rfl (by decide)
    all_goals exact h.same
  | disable =>
    simp only [AudioDevice.handle, voiceTriggerDisable]
    cases hst : s.adev.voice_st <;> rw [hst] at hnone hname
    case eVoiceNone => exact absurd rfl hnone
    case eVoiceTriggerArmed => exact h.disarm (by rw [hst]; rfl) rfl ⟨by decide, hname⟩
    case eVoiceTriggerFired => exact h.disarm (by rw [hst]; rfl) rfl ⟨by decide, hname⟩
    case eVoiceRecogArmed => exact h.disarm (by rw [hst]; rfl) rfl ⟨by decide, hname⟩
    case eVoiceRecogReArm => exact h.move hst rfl (by decide)
    all_goals exact h.same
  | triggered =>
    simp only [AudioDevice.handle, voiceTriggerTriggered]
    cases hst : s.adev.voice_st <;> rw [hst] at hnone
    case eVoiceNone => exact absurd rfl hnone
    case eVoiceTriggerArmed => exact h.move hst rfl (by decide)
    case eVoiceRecogArmed => exact h.move hst rfl (by decide)
    all_goals exact h.same
  | audioStarted =>
    simp only [AudioDevice.handle, voiceTriggerAudioStartedLocked]
    cases hst : s.adev.voice_st <;> rw [hst] at hnone
    case eVoiceNone => exact absurd rfl hnone
    case eVoiceRecogFired => exact h.move hst rfl (by decide)
    all_goals exact h.same
  | audioEnded =>
    simp only [AudioDevice.handle, voiceTriggerAudioEndedLocked]
    cases hst : s.adev.voice_st <;> rw [hst] at hnone hname
    case eVoiceNone => exact absurd rfl hnone
    case eVoiceRecogAudio => exact h.disarm (by rw [hst]; rfl) rfl ⟨by decide, hname⟩
    case eVoiceRecogReArm => exact h.move hst rfl (by decide)
    all_goals exact h.same

end Step

/-! ## Every run -/

/-- A fresh device in an idle state whose stream `i` is defined and below its maximum. -/
structure VoiceStart (i : Nat) (r : StreamRef) (s : VoiceRun) : Prop where
  idle : s.adev.voice_st = .eVoiceTriggerIdle ∨ s.adev.voice_st = .eVoiceRecogIdle
  found : findNamed s.adev.cm.refs s.adev.voice_st.streamName = some i
  entry : s.adev.cm.refs[i]? = some r
  below : r.count < r.max
  log : s.log = []

instance (i : Nat) (r : StreamRef) (s : VoiceRun) : Decidable (VoiceStart i r s) :=
  decidable_of_iff ((s.adev.voice_st = .eVoiceTriggerIdle ∨ s.adev.voice_st = .eVoiceRecogIdle) ∧
      findNamed s.adev.cm.refs s.adev.voice_st.streamName = some i ∧ s.adev.cm.refs[i]? = some r ∧
      r.count < r.max ∧ s.log = [])
    ⟨fun h => ⟨h.1, h.2.1, h.2.2.1, h.2.2.2.1, h.2.2.2.2⟩,
      fun h => ⟨h.idle, h.found, h.entry, h.below, h.log⟩⟩

/-- Runs whose events all meet `ok`. -/
abbrev VoiceReached (all : AllDevices) (i : Nat) (r : StreamRef) (ok : VoiceRun → VoiceEvent → Prop) :
    VoiceRun → Prop :=
  Reachable (VoiceStart i r) (fun s e s' => s.step all e = s') ok

/-- The trigger is not enabled again after it has fired. -/
def NotRefired (s : VoiceRun) (e : VoiceEvent) : Prop :=
  e = .enable → s.adev.voice_st ≠ .eVoiceTriggerFired

theorem VoiceStart.inv {i : Nat} {r : StreamRef} {s : VoiceRun} (h : VoiceStart i r s) :
    VoiceInv s.adev.voice_st.streamName i r s := by
  have howes : s.adev.voice_st.owes = 0 ∧ s.adev.voice_st ≠ .eVoiceNone := by
    rcases h.idle with hst | hst
    · rw [hst]
      decide
    · rw [hst]
      decide
  constructor
  · exact ⟨howes.2, rfl⟩
  · exact h.found
  · simpa [howes.1] using h.entry
  · exact h.below
  · intro h1
    rw [howes.1] at h1
    cases h1
  · simp [h.log, howes.1]

/-- **One reference outside the idle states**, none in them, and none to another
stream; the manager's own count of the stream follows. -/
theorem reference_held (all : AllDevices) (i : Nat) (r : StreamRef) {s : VoiceRun}
    (hrun : VoiceReached all i r NotRefired s) :
    (∀ j, held j s.log = if j = i then s.adev.voice_st.owes else 0) ∧
    s.adev.cm.refs[i]? = some { r with count := r.count + s.adev.voice_st.owes } := by
  have hinv : ∃ name, VoiceInv name i r s := by
    induction hrun with
    | start hs => exact ⟨_, hs.inv⟩
    | next _ hok hs ih =>
      obtain ⟨name, h⟩ := ih
      subst hs
      exact ⟨name, h.step _ hok⟩
  obtain ⟨name, h⟩ := hinv
  exact ⟨h.balance, h.entry⟩

/-- A configuration with one stream of the given name. -/
def voiceConfig (name : String) : ConfigMgr :=
  ⟨mochaConfig.devices, [⟨.in_hw, some name, 0, 2 ^ 31 - 1, 4, 5, 0⟩]⟩

def voiceDevice (name : String) : VoiceRun :=
  ⟨voiceTriggerInit ⟨voiceConfig name, .eVoiceNone, none, 0⟩, []⟩

def VoiceRun.after (s : VoiceRun) (es : List VoiceEvent) : VoiceRun :=
  es.foldl (fun s e => s.step platformDevices e) s

/-- Recognition is armed, fires, opens for audio and is armed again during the audio. -/
theorem reference_held_rearm :
    ((voiceDevice kVoiceRecogStreamName).after
      [.enable, .triggered, .audioStarted, .enable, .audioEnded]).adev.voice_st = .eVoiceRecogArmed ∧
    ∀ j, held j ((voiceDevice kVoiceRecogStreamName).after
      [.enable, .triggered, .audioStarted, .enable, .audioEnded]).log = if j = 0 then 1 else 0 :=
  ⟨by decide, (reference_held platformDevices 0 ⟨some kVoiceRecogStreamName, 0, 2 ^ 31 - 1⟩
    (.next (.next (.next (.next (.next (.start (s := voiceDevice kVoiceRecogStreamName) (by decide))
      (i := .enable) (fun _ => by decide) rfl) (i := .triggered) (by intro h; cases h) rfl)
      (i := .audioStarted) (by intro h; cases h) rfl) (i := .enable) (fun _ => by decide) rfl)
      (i := .audioEnded) (by intro h; cases h) rfl)).1⟩

/-- Enabling a fired trigger takes a second reference; disabling it then leaves the
idle device with one. -/
theorem fired_enable_leaks_reference :
    ¬ ∀ s, VoiceReached platformDevices 0 ⟨some kVoiceTriggerStreamName, 0, 2 ^ 31 - 1⟩
      (fun _ _ => True) s → held 0 s.log = s.adev.voice_st.owes := by
  intro h
  have hleak := h _ (.next (.next (.next (.next
    (.start (s := voiceDevice kVoiceTriggerStreamName) (by decide))
    (i := .enable) trivial rfl) (i := .triggered) trivial rfl) (i := .enable) trivial rfl)
    (i := .disable) trivial rfl)
  exact absurd hleak (by decide)

end MochaHal.Audio
