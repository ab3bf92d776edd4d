import MochaHal.Audio.Walk

/-! Routing and the two directions.  Input and output types share their low bits and
are told apart by `AUDIO_DEVICE_BIT_IN` only, which the loop over the table tests only
if the mask has it.  A run keeps the directions apart as long as no mask reaches a
device of the other direction that has one of the two paths, and opening and closing an
input stream finds no global path (`directions_apart`); a second route of an input
stream has lost the bit and reaches output devices (`reroute_reaches_headset`). -/

namespace MochaHal.Audio
open MochaHal.Bits MochaHal.Reach

/-! ## Sides -/

def isInputType (t : Mask) : Bool := t &&& AUDIO_DEVICE_BIT_IN ≠ 0

/-- No device of the other direction that has one of the paths is reached. -/
def Apart (input : Bool) (m : Mask) (first second : Int) (devs : List Device) : Prop :=
  ∀ x ∈ devs.zipIdx, isInputType x.1.type ≠ input →
    ReachedBy m ((types devs).take x.2) x.1.type → ∀ p ∈ x.1.paths, p.id ≠ first ∧ p.id ≠ second

instance (input : Bool) (m : Mask) (first second : Int) (devs : List Device) :
    Decidable (Apart input m first second devs) :=
  inferInstanceAs (Decidable (∀ x ∈ devs.zipIdx, _ → _ → ∀ p ∈ x.1.paths, _))

/-- The masks of a call keep apart, and an input stream has no global paths: the type
of the global device is 0. -/
def KeepsApart (all : AllDevices) (cm : ConfigMgr) : Call → Prop
  | .applyRoute i devices => ∀ s ∈ cm.streams[i]?, (newDevices all s devices).isSome = true →
      Apart s.isInput (disabling s devices) s.disable_path e_path_id_off cm.devices ∧
        Apart s.isInput (enabling s devices) e_path_id_on s.enable_path cm.devices
  | .releaseStream i => ∀ s ∈ cm.streams[i]?, s.ref_count = 1 →
      Apart s.isInput s.current_devices e_path_id_off s.disable_path cm.devices ∧
        (s.isInput = true → GlobalLacks cm.devices s.disable_path ∧ GlobalLacks cm.devices e_path_id_off)
  | call => WhenOpened cm call fun s => s.isInput = true →
      GlobalLacks cm.devices e_path_id_on ∧ GlobalLacks cm.devices s.enable_path

/-- A device on the stream's side; for an input stream, one that `m` names. -/
def OnSide (s : Stream) (m t : Mask) : Prop :=
  (s.isInput = true → t &&& AUDIO_DEVICE_BIT_IN ≠ 0 ∧ t &&& (m &&& ~~~AUDIO_DEVICE_BIT_IN) ≠ 0) ∧
    (s.isInput = false → t &&& AUDIO_DEVICE_BIT_IN = 0)

instance (s : Stream) (m t : Mask) : Decidable (OnSide s m t) :=
  inferInstanceAs (Decidable ((_ → _ ∧ _) ∧ (_ → _)))

/-- The stream that a call is made for. -/
def Event.stream (e : Event) : Option Nat :=
  match e.call with
  | .getStream devices pcm => (getStream e.before devices pcm).2.1
  | .getNamedStream name => (getNamedStream e.before name).2.1
  | .applyRoute i _ | .releaseStream i => some i

/-- The devices that a call enables or disables for its stream. -/
def Event.changed (e : Event) (s : Stream) : Mask :=
  match e.call with
  | .applyRoute _ devices => enabling s devices ||| disabling s devices
  | .releaseStream _ => s.current_devices
  | _ => 0

/-- Every path is applied to a device on the stream's side. -/
def Event.Sound (e : Event) : Prop :=
  ∀ i ∈ e.stream, ∀ s ∈ e.before.streams[i]?, ∀ a ∈ e.applied, ∀ dev ∈ e.before.devices[a.device]?,
    OnSide s (e.changed s) dev.type

instance (e : Event) : Decidable e.Sound :=
  inferInstanceAs (Decidable (∀ i ∈ e.stream, ∀ s ∈ e.before.streams[i]?, ∀ a ∈ e.applied,
    ∀ dev ∈ e.before.devices[a.device]?, _))

/-! ## One loop -/

section

variable {input : Bool} {m m' : Mask} {first second : Int} {devs devs' : List Device}

theorem apart_iff : Apart input m first second devs ↔
    ∀ k dev, devs[k]? = some dev → isInputType dev.type ≠ input →
      ReachedBy m ((types devs).take k) dev.type → ∀ p ∈ dev.paths, p.id ≠ first ∧ p.id ≠ second := by
  constructor
  · exact fun h k dev hk => h (dev, k) (List.mk_mem_zipIdx_iff_getElem?.mpr hk)
  · exact fun h x hx => h x.2 x.1 (List.mk_mem_zipIdx_iff_getElem?.mp hx)

theorem Apart.of_static (h : devs'.map Device.static = devs.map Device.static)
    (ha : Apart input m first second devs) : Apart input m first second devs' := by
  rw [apart_iff] at ha ⊢
  intro k dev' hk hside hreach
  obtain ⟨dev, hdev, htype, hpaths⟩ := getElem?_of_static h hk
  rw [types_of_static h] at hreach
  rw [← htype] at hside hreach
  rw [← hpaths]
  exact ha k dev hdev hside hreach

/-- A path that a loop applies belongs to a device on the stream's side. -/
theorem Apart.onSide {s : Stream} (h : Apart s.isInput m first second devs)
    (hm : Incl m m') {a : Applied}
    (ha : a ∈ (applyPathsToDevices devs m first second).2) :
    ∀ dev ∈ devs[a.device]?, OnSide s m' dev.type := by
  intro dev hdev
  obtain ⟨dev', hdev', hreach, hpath⟩ := mem_applyPathsToDevices devs m first second ha
  obtain rfl : dev = dev' := Option.some.inj (hdev.symm.trans hdev')
  obtain ⟨hmem, hid⟩ := mem_applyPathsById hpath
  have hside : isInputType dev.type = s.isInput := by
    by_contra hne
    obtain ⟨h₁, h₂⟩ := apart_iff.mp h a.device dev hdev hne hreach a.path hmem
    exact hid.elim h₁ h₂
  refine ⟨fun hin => ?_, fun hin => ?_⟩
  · rw [hin] at hside
    exact ⟨of_decide_eq_true hside, (hm.and_right _).meets hreach.meets⟩
  · rw [hin] at hside
    exact not_not.mp (of_decide_eq_false hside)

end

/-! ## One call -/

theorem applyRoute_onSide {all : AllDevices} {cm : ConfigMgr} {i : Nat} {s : Stream} {devices : Mask}
    (h : (newDevices all s devices).isSome = true →
      Apart s.isInput (disabling s devices) s.disable_path e_path_id_off cm.devices ∧
        Apart s.isInput (enabling s devices) e_path_id_on s.enable_path cm.devices) :
    ∀ a ∈ (applyRoute all cm i s devices).2, ∀ dev ∈ cm.devices[a.device]?,
      OnSide s (enabling s devices ||| disabling s devices) dev.type := by
  intro a ha dev hdev
  unfold applyRoute at ha
  cases hnew : newDevices all s devices with
  | none =>
    rw [hnew] at ha
    exact absurd ha List.not_mem_nil
  | some new =>
    rw [hnew] at h ha
    obtain ⟨hdis, hen⟩ := h rfl
    rcases List.mem_append.mp ha with ha | ha
    · exact hdis.onSide (incl_or_right _ _) ha dev hdev
    · have hstatic := applyPathsToDevices_static cm.devices (disabling s devices) s.disable_path
        e_path_id_off
      obtain ⟨dev', hdev', htype, -⟩ := getElem?_of_static hstatic.symm hdev
      rw [← htype]
      exact (hen.of_static hstatic).onSide (incl_or_left _ _) ha dev' hdev'

/-- Global paths are applied for output streams, or there are none. -/
theorem applyPathsToGlobal_onSide {devs : List Device} {s : Stream} {first second : Int}
    (h : s.isInput = true → GlobalLacks devs first ∧ GlobalLacks devs second) (m : Mask) {a : Applied}
    (ha : a ∈ (applyPathsToGlobal devs first second).2) :
    ∀ dev ∈ devs[a.device]?, OnSide s m dev.type := by
  intro dev hdev
  obtain ⟨dev', hdev', hglobal, hpath, hid⟩ := mem_applyPathsToGlobal ha
  obtain rfl : dev = dev' := Option.some.inj (hdev.symm.trans hdev')
  refine ⟨fun hin => ?_, fun _ => ?_⟩
  · obtain ⟨hfirst, hsecond⟩ := h hin
    rcases hid with hid | hid
    · exact absurd ⟨a.path, hpath, hid⟩ (hfirst dev hglobal)
    · exact absurd ⟨a.path, hpath, hid⟩ (hsecond dev hglobal)
  · rw [globalDevice_type hglobal]
    exact BitVec.zero_and

theorem releaseStream_onSide {cm : ConfigMgr} {i : Nat} {s : Stream}
    (h : s.ref_count = 1 → Apart s.isInput s.current_devices e_path_id_off s.disable_path cm.devices ∧
      (s.isInput = true → GlobalLacks cm.devices s.disable_path ∧ GlobalLacks cm.devices e_path_id_off)) :
    ∀ a ∈ (releaseStream cm i s).2, ∀ dev ∈ cm.devices[a.device]?,
      OnSide s s.current_devices dev.type := by
  intro a ha dev hdev
  unfold releaseStream at ha
  dsimp only at ha
  split at ha
  case isTrue hlast =>
    obtain ⟨hapart, hglobal⟩ := h (by omega)
    rcases List.mem_append.mp ha with ha | ha
    · exact hapart.onSide (fun _ hb => hb) ha dev hdev
    · have hstatic := applyPathsToDevices_static cm.devices s.current_devices e_path_id_off
        s.disable_path
      obtain ⟨dev', hdev', htype, -⟩ := getElem?_of_static hstatic.symm hdev
      rw [← htype]
      refine applyPathsToGlobal_onSide (fun hin => ?_) _ ha dev' hdev'
      exact ⟨(hglobal hin).1.of_static hstatic, (hglobal hin).2.of_static hstatic⟩
  case isFalse => exact absurd ha List.not_mem_nil

theorem openStream_onSide {cm : ConfigMgr} {i : Nat} {s : Stream} {r : ConfigMgr × List Applied}
    (hr : openStream cm i s = some r)
    (h : s.ref_count = 0 → 0 < s.max_ref_count → s.isInput = true →
      GlobalLacks cm.devices e_path_id_on ∧ GlobalLacks cm.devices s.enable_path) (m : Mask) :
    ∀ a ∈ r.2, ∀ dev ∈ cm.devices[a.device]?, OnSide s m dev.type := by
  intro a ha
  unfold openStream at hr
  obtain ⟨hmax, hr⟩ := Option.ite_none_right_eq_some.mp hr
  obtain rfl := Option.some.inj hr
  dsimp only at ha
  split at ha
  case isTrue hfirst => exact applyPathsToGlobal_onSide (h (by omega) (by omega)) m ha
  case isFalse => exact absurd ha List.not_mem_nil

/-- What is applied when a stream is opened. -/
theorem Opens.onSide {cm : ConfigMgr} {wanted : Stream → Prop}
    {r : ConfigMgr × Option Nat × List Applied} (h : Opens cm wanted r)
    (hok : ∀ s ∈ cm.streams, wanted s → s.ref_count = 0 → 0 < s.max_ref_count → s.isInput = true →
      GlobalLacks cm.devices e_path_id_on ∧ GlobalLacks cm.devices s.enable_path) (m : Mask) :
    ∀ i ∈ r.2.1, ∀ s ∈ cm.streams[i]?, ∀ a ∈ r.2.2, ∀ dev ∈ cm.devices[a.device]?,
      OnSide s m dev.type := by
  rcases h with rfl | ⟨i, s, r', hs, hwanted, ho, rfl⟩
  · intro i hi
    cases hi
  · intro j hj s' hs'
    obtain rfl := Option.some.inj hj
    obtain rfl := Option.some.inj (hs.symm.trans hs')
    exact openStream_onSide ho (hok s (List.mem_of_getElem? hs) hwanted) m

/-- **Step lemma.** -/
theorem step_sound {all : AllDevices} {cm : ConfigMgr} {call : Call} (h : KeepsApart all cm call) :
    Event.Sound ⟨cm, call, (cm.step all call).2, (cm.step all call).1⟩ := by
  cases call with
  | getStream devices pcm => exact (getStreamLoop_opens cm _ _).onSide h _
  | getNamedStream name => exact (getNamedStream_opens cm name).onSide h _
  | applyRoute i devices =>
    intro j hj s hs a ha
    obtain rfl := Option.some.inj hj
    have hstep : cm.step all (.applyRoute i devices) = applyRoute all cm i s devices := by
      rw [ConfigMgr.step, Option.mem_def.mp hs]
    dsimp only at ha
    rw [hstep] at ha
    exact applyRoute_onSide (h s hs) a ha
  | releaseStream i =>
    intro j hj s hs a ha
    obtain rfl := Option.some.inj hj
    have hstep : cm.step all (.releaseStream i) = releaseStream cm i s := by
      rw [ConfigMgr.step, Option.mem_def.mp hs]
    dsimp only at ha
    rw [hstep] at ha
    exact releaseStream_onSide (h s hs) a ha

/-! ## Runs -/

/-- **Directions.** -/
theorem directions_apart (all : AllDevices) (s : Session)
    (h : Run all (fun _ => True) (KeepsApart all) s) : ∀ e ∈ s.log, e.Sound := by
  refine Reachable.invariant (P := fun s => ∀ e ∈ s.log, e.Sound) ?_ ?_ h
  · rintro s ⟨-, -, hlog⟩ e he
    rw [hlog] at he
    exact absurd he List.not_mem_nil
  · intro s call s' ih hok hs e he
    obtain ⟨-, hs⟩ := Option.ite_none_right_eq_some.mp hs
    obtain rfl := Option.some.inj hs
    rcases List.mem_append.mp he with he | he
    · exact ih e he
    · obtain rfl := List.mem_singleton.mp he
      exact step_sound hok

instance (all : AllDevices) (cm : ConfigMgr) (call : Call) : Decidable (KeepsApart all cm call) :=
  match call with
  | .applyRoute i devices => inferInstanceAs (Decidable (∀ s ∈ cm.streams[i]?,
      (newDevices all s devices).isSome = true → _ ∧ _))
  | .releaseStream i => inferInstanceAs (Decidable (∀ s ∈ cm.streams[i]?, s.ref_count = 1 →
      _ ∧ (_ → _ ∧ _)))
  | .getStream devices pcm => inferInstanceAs (Decidable (WhenOpened cm (.getStream devices pcm) _))
  | .getNamedStream name => inferInstanceAs (Decidable (WhenOpened cm (.getNamedStream name) _))

/-- Playback moves from the speaker to the headphones while the microphone records. -/
def apartCalls : List Call :=
  [.getStream AUDIO_DEVICE_OUT_SPEAKER true, .applyRoute 0 AUDIO_DEVICE_OUT_SPEAKER,
    .getStream AUDIO_DEVICE_IN_BUILTIN_MIC true, .applyRoute 1 AUDIO_DEVICE_IN_BUILTIN_MIC,
    .applyRoute 0 AUDIO_DEVICE_OUT_WIRED_HEADPHONE, .releaseStream 1, .releaseStream 0]

def apartEnd : Option Session :=
  apartCalls.foldlM (fun s call => if KeepsApart platformDevices s.cm call then
    s.step platformDevices call else none) ⟨mochaConfig, []⟩

theorem directions_apart_mocha :
    apartEnd.map (fun s => s.log.map fun e => e.applied.length) = some [0, 2, 0, 2, 3, 1, 1] ∧
      ∀ s ∈ apartEnd, ∀ e ∈ s.log, e.Sound :=
  ⟨by decide, fun s hs => directions_apart platformDevices s
    (reachable_foldlM apartCalls (.start ⟨mochaConfig_parsed, trivial, rfl⟩) hs)⟩

/-- Recording moves from the headset's microphone to the built-in one. -/
def rerouteCalls : List Call :=
  [.getStream AUDIO_DEVICE_IN_WIRED_HEADSET true, .applyRoute 1 AUDIO_DEVICE_IN_WIRED_HEADSET,
    .applyRoute 1 AUDIO_DEVICE_IN_BUILTIN_MIC]

def rerouteEnd : Option Session :=
  rerouteCalls.foldlM (fun s call => if True then s.step platformDevices call else none) ⟨mochaConfig, []⟩

/-- The last call applies the "on" path of the headset's output for the input stream. -/
theorem reroute_reaches_headset :
    ¬ ∀ (all : AllDevices) (s : Session), Run all (fun _ => True) (fun _ _ => True) s →
      ∀ e ∈ s.log, e.Sound := by
  intro h
  have hbad : rerouteEnd.map (fun s => s.log.all fun e => decide e.Sound) = some false := by decide
  obtain ⟨s, hs, hlog⟩ := Option.map_eq_some_iff.mp hbad
  have hrun : Run platformDevices (fun _ => True) (fun _ _ => True) s :=
    reachable_foldlM rerouteCalls (.start ⟨mochaConfig_parsed, trivial, rfl⟩) hs
  have hall : s.log.all (fun e => decide e.Sound) = true :=
    List.all_eq_true.mpr fun e he => decide_eq_true (h platformDevices s hrun e he)
  rw [hall] at hlog
  cases hlog

end MochaHal.Audio
