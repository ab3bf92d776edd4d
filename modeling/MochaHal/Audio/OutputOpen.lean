import MochaHal.Lib.Bits
import MochaHal.Audio.StreamRefs

/-! `adev_open_output_stream` of `audio/audio_hw.c`: the stream reference is taken and
the route applied before the memory, the format and the compress device are known to be
good.  No error exit gives the reference back, so a failed call leaves the configuration
manager as it was if and only if it found no stream (`open_untouched_iff`). -/

namespace MochaHal.Audio.Output
open MochaHal.Bits

/-! ## The source -/

def EINVAL : Int := 22
def ENOMEM : Int := 12
def EBUSY : Int := 16

def AUDIO_FORMAT_MAIN_MASK : BitVec 32 := 0xFF000000
def AUDIO_FORMAT_PCM : BitVec 32 := 0x00000000
def AUDIO_FORMAT_MP3 : BitVec 32 := 0x01000000
def AUDIO_FORMAT_AAC : BitVec 32 := 0x04000000
def AUDIO_FORMAT_HE_AAC_V1 : BitVec 32 := 0x05000000
def AUDIO_FORMAT_HE_AAC_V2 : BitVec 32 := 0x06000000
def AUDIO_FORMAT_VORBIS : BitVec 32 := 0x07000000

def SND_AUDIOMODE_AAC_HE : BitVec 32 := 0x10
def SND_RATECONTROLMODE_CONSTANTBITRATE : BitVec 32 := 0x1
def SND_RATECONTROLMODE_VARIABLEBITRATE : BitVec 32 := 0x2

def OUT_PERIOD_SIZE_DEFAULT : BitVec 32 := 256
def OUT_PERIOD_COUNT_DEFAULT : BitVec 32 := 4

structure AudioConfig where
  sample_rate : BitVec 32
  channel_mask : BitVec 32
  format : BitVec 32
  deriving DecidableEq, Repr

def audioIsLinearPcm (format : BitVec 32) : Bool := format &&& AUDIO_FORMAT_MAIN_MASK = AUDIO_FORMAT_PCM

/-- `SND_AUDIOCODEC_` ids. -/
inductive AudioCodec
  | mp3
  | aac
  | vorbis
  deriving DecidableEq, Repr

/-- The fields of `snd_codec` that are not left at 0. -/
structure SndCodec where
  id : AudioCodec
  ch_out : Nat
  sample_rate : BitVec 32
  rate_control : BitVec 32
  level : BitVec 32
  align : BitVec 32
  deriving DecidableEq, Repr

/-- `stream_out_common`, with the codec of a compress stream; the stream of the
configuration manager is given by its index. -/
structure StreamOut where
  hw : Nat
  standby : Bool
  format : BitVec 32
  channel_mask : BitVec 32
  channel_count : Nat
  sample_rate : BitVec 32
  frame_size : BitVec 32
  buffer_size : BitVec 32
  latency : BitVec 32
  codec : Option SndCodec
  deriving DecidableEq, Repr

/-- What the call gets from outside: the memory, the size of a frame, the periods that
each stream is configured with, and the compress device with the size and the number of
its fragments. -/
structure Env where
  calloc : Bool
  frame_size : BitVec 32
  period_size : Nat → BitVec 32
  period_count : Nat → BitVec 32
  compress_open : Option (BitVec 32 × BitVec 32)

def outPcmCfgPeriodSize (env : Env) (hw : Nat) : BitVec 32 :=
  if env.period_size hw ≠ 0 then env.period_size hw else OUT_PERIOD_SIZE_DEFAULT

def outPcmCfgPeriodCount (env : Env) (hw : Nat) : BitVec 32 :=
  if env.period_count hw ≠ 0 then env.period_count hw else OUT_PERIOD_COUNT_DEFAULT

/-- The stream as `do_init_out_common` leaves it. -/
def initOutCommon (env : Env) (hw : Nat) (config : AudioConfig) : StreamOut where
  hw := hw
  standby := true
  format := config.format
  channel_mask := config.channel_mask
  channel_count := popcount config.channel_mask
  sample_rate := config.sample_rate
  frame_size := env.frame_size
  buffer_size := 0
  latency := 0
  codec := none

/-- `do_init_out_common`, which applies the initial route. -/
def doInitOutCommon (all : AllDevices) (env : Env) (cm : ConfigMgr) (hw : Nat) (config : AudioConfig)
    (devices : Mask) : Int × ConfigMgr × StreamOut :=
  (0, (cm.step all (.applyRoute hw devices)).1, initOutCommon env hw config)

def doInitOutPcm (env : Env) (out : StreamOut) : Int × StreamOut :=
  let size := outPcmCfgPeriodSize env out.hw
  (0, { out with
    buffer_size := size * out.frame_size
    latency := size * outPcmCfgPeriodCount env out.hw * 1000 / out.sample_rate })

/-- The switch over the format: the codec and its level. -/
def codecFor (format : BitVec 32) : Option (AudioCodec × BitVec 32) :=
  let main := format &&& AUDIO_FORMAT_MAIN_MASK
  if main = AUDIO_FORMAT_MP3 then some (.mp3, 0)
  else if main = AUDIO_FORMAT_AAC then some (.aac, 0)
  else if main = AUDIO_FORMAT_HE_AAC_V1 then some (.aac, SND_AUDIOMODE_AAC_HE)
  else if main = AUDIO_FORMAT_HE_AAC_V2 then some (.aac, SND_AUDIOMODE_AAC_HE)
  else if main = AUDIO_FORMAT_VORBIS then some (.vorbis, 0)
  else none

def openOutputCompress (env : Env) (out : StreamOut) : Int × StreamOut :=
  match env.compress_open with
  | none => (-EBUSY, out)
  | some (fragment_size, fragments) => (0, { out with buffer_size := fragment_size * fragments })

def doInitOutCompress (env : Env) (out : StreamOut) (config : AudioConfig) : Int × StreamOut :=
  match codecFor config.format with
  | none => (-EINVAL, out)
  | some (id, level) =>
    openOutputCompress env { out with
      codec := some {
        id := id
        ch_out := popcount config.channel_mask
        sample_rate := config.sample_rate
        rate_control := SND_RATECONTROLMODE_CONSTANTBITRATE ||| SND_RATECONTROLMODE_VARIABLEBITRATE
        level := level
        align := 1 } }

/-- What a call returns and leaves. -/
structure Result where
  ret : Int
  cm : ConfigMgr
  config : AudioConfig
  stream_out : Option StreamOut

/-- The flags are only logged, by this function and by `get_stream`. -/
def adevOpenOutputStream (all : AllDevices) (env : Env) (cm : ConfigMgr) (devices : Mask) (_flags : BitVec 32)
    (config : AudioConfig) (stream_out : Option StreamOut) : Result :=
  let devices := devices &&& all.outAll
  let got := getStream cm devices (audioIsLinearPcm config.format)
  match got.2.1 with
  | none => ⟨-EINVAL, got.1, config, stream_out⟩
  | some hw =>
    if env.calloc = false then ⟨-ENOMEM, got.1, config, stream_out⟩
    else
      let common := doInitOutCommon all env got.1 hw config devices
      if common.1 < 0 then ⟨common.1, common.2.1, config, none⟩
      else
        let isPcm := (got.1.streams[hw]?.map Stream.type) = some .out_pcm
        let out := if isPcm then doInitOutPcm env common.2.2 else doInitOutCompress env common.2.2 config
        if out.1 < 0 then ⟨out.1, common.2.1, config, none⟩
        else ⟨0, common.2.1, ⟨out.2.sample_rate, out.2.channel_mask, out.2.format⟩, some out.2⟩

/-! ## What a failed call leaves -/

/-- The counts and routes of the manager are as they were. -/
def Untouched (cm cm' : ConfigMgr) : Prop :=
  cm'.streams.map (fun s => (s.ref_count, s.current_devices)) =
      cm.streams.map (fun s => (s.ref_count, s.current_devices)) ∧
    cm'.devices.map Device.use_count = cm.devices.map Device.use_count

instance (cm cm' : ConfigMgr) : Decidable (Untouched cm cm') := inferInstanceAs (Decidable (_ ∧ _))

/-- What follows the reference succeeds: there is memory, and a compressed stream has a
format with a codec and a device that opens. -/
def Succeeds (all : AllDevices) (env : Env) (devices : Mask) (config : AudioConfig) : Prop :=
  env.calloc = true ∧ (requiredType (devices &&& all.outAll) (audioIsLinearPcm config.format) = .out_pcm ∨
    (codecFor config.format).isSome = true ∧ env.compress_open.isSome = true)

/-- A stream that is returned is of the type asked for and has one more reference. -/
theorem getStream_granted {cm : ConfigMgr} {devices : Mask} {pcm : Bool} {i : Nat}
    (h : (getStream cm devices pcm).2.1 = some i) :
    ∃ s s', cm.streams[i]? = some s ∧ (getStream cm devices pcm).1.streams[i]? = some s' ∧
      s'.type = requiredType devices pcm ∧ s'.ref_count = s.ref_count + 1 := by
  rcases getStreamLoop_opens cm (requiredType devices pcm) cm.streams.length with
    hnone | ⟨j, s, r, hs, htype, ho, hr⟩
  · rw [getStream, hnone] at h
    cases h
  · obtain rfl : j = i := by
      rw [getStream, hr] at h
      exact Option.some.inj h
    obtain ⟨-, ho⟩ := Option.ite_none_right_eq_some.mp ho
    obtain rfl := Option.some.inj ho
    refine ⟨s, { s with ref_count := s.ref_count + 1 }, hs, ?_, htype, rfl⟩
    rw [getStream, hr]
    exact List.getElem?_set_self (List.getElem?_eq_some_iff.mp hs).1

/-- The initial route keeps the reference. -/
theorem applyRoute_ref_count (all : AllDevices) {cm : ConfigMgr} {i : Nat} {s : Stream} (devices : Mask)
    (hs : cm.streams[i]? = some s) :
    ∃ s', (cm.step all (.applyRoute i devices)).1.streams[i]? = some s' ∧ s'.ref_count = s.ref_count := by
  have hturn : Turn cm (.applyRoute i devices) (cm.step all (.applyRoute i devices)) := by
    rw [ConfigMgr.step, hs]
    exact applyRoute_turn hs
  obtain ⟨s', hs', href⟩ := hturn.refs i s hs
  refine ⟨s', hs', href.trans ?_⟩
  simp [Call.change, Call.granted]

/-- A reference that was taken and not given back shows. -/
theorem not_untouched {cm cm' : ConfigMgr} {i : Nat} {s s' : Stream} (hs : cm.streams[i]? = some s)
    (hs' : cm'.streams[i]? = some s') (href : s'.ref_count = s.ref_count + 1) : ¬ Untouched cm cm' := by
  rintro ⟨hstreams, -⟩
  have hat := congrArg (fun l => l[i]?) hstreams
  simp only [List.getElem?_map, hs, hs', Option.map_some, Option.some.injEq, Prod.mk.injEq] at hat
  omega

theorem getStream_of_none {cm : ConfigMgr} {devices : Mask} {pcm : Bool}
    (h : (getStream cm devices pcm).2.1 = none) : (getStream cm devices pcm).1 = cm := by
  rcases getStreamLoop_opens cm (requiredType devices pcm) cm.streams.length with hnone | ⟨j, s, r, -, -, -, hr⟩
  · rw [getStream, hnone]
  · rw [getStream, hr] at h
    cases h

theorem doInitOutCompress_ret (env : Env) (out : StreamOut) (config : AudioConfig) :
    (doInitOutCompress env out config).1 < 0 ↔
      ¬ ((codecFor config.format).isSome = true ∧ env.compress_open.isSome = true) := by
  unfold doInitOutCompress
  cases codecFor config.format with
  | none => simp [EINVAL]
  | some codec =>
    unfold openOutputCompress
    cases env.compress_open with
    | none => simp [EBUSY]
    | some fragments => simp

variable (all : AllDevices) (env : Env) (cm : ConfigMgr) (devices : Mask) (flags : BitVec 32)
  (config : AudioConfig) (stream_out : Option StreamOut)

/-- Behind the reference: the call fails unless `Succeeds`, and the reference stays. -/
theorem open_granted {hw : Nat}
    (h : (getStream cm (devices &&& all.outAll) (audioIsLinearPcm config.format)).2.1 = some hw) :
    let r := adevOpenOutputStream all env cm devices flags config stream_out
    (r.ret < 0 ↔ ¬ Succeeds all env devices config) ∧ ¬ Untouched cm r.cm := by
  obtain ⟨s, s', hs, hs', htype, href⟩ := getStream_granted h
  obtain ⟨s'', hs'', href'⟩ := applyRoute_ref_count all (devices &&& all.outAll) hs'
  have hkept := not_untouched hs hs' href
  have hzero : ¬ (0 : Int) < 0 := by decide
  have hrouted := not_untouched hs hs'' (href'.trans href)
  unfold adevOpenOutputStream Succeeds
  simp only [h, hs', htype, doInitOutCommon, Option.map_some, Option.some.injEq]
  cases env.calloc with
  | false =>
    have hneg : -ENOMEM < 0 := by decide
    exact ⟨⟨fun _ hok => Bool.false_ne_true hok.1, fun _ => hneg⟩, hkept⟩
  | true =>
    rw [if_neg (by decide), if_neg hzero]
    by_cases hpcm : requiredType (devices &&& all.outAll) (audioIsLinearPcm config.format) = .out_pcm
    · rw [if_pos hpcm, if_neg (by simp [doInitOutPcm])]
      exact ⟨⟨fun hneg => absurd hneg hzero, fun hnot => absurd ⟨rfl, Or.inl hpcm⟩ hnot⟩, hrouted⟩
    · rw [if_neg hpcm]
      split
      case isTrue hfail =>
        refine ⟨⟨fun _ hok => ?_, fun _ => hfail⟩, hrouted⟩
        exact (doInitOutCompress_ret _ _ _).mp hfail (hok.2.resolve_left hpcm)
      case isFalse hok =>
        refine ⟨⟨fun hneg => absurd hneg hzero, fun hnot => ?_⟩, hrouted⟩
        rw [doInitOutCompress_ret, not_not] at hok
        exact absurd ⟨rfl, Or.inr hok⟩ hnot

/-- **Failed opens.** -/
theorem open_untouched_iff (all : AllDevices) (env : Env) (cm : ConfigMgr) (devices : Mask) (flags : BitVec 32)
    (config : AudioConfig) (stream_out : Option StreamOut) :
    ((adevOpenOutputStream all env cm devices flags config stream_out).ret < 0 →
        Untouched cm (adevOpenOutputStream all env cm devices flags config stream_out).cm) ↔
      Exhausted cm (.getStream (devices &&& all.outAll) (audioIsLinearPcm config.format)) ∨
        Succeeds all env devices config := by
  rw [← getStream_none]
  cases h : (getStream cm (devices &&& all.outAll) (audioIsLinearPcm config.format)).2.1 with
  | none =>
    refine ⟨fun _ => Or.inl rfl, fun _ _ => ?_⟩
    have hr : (adevOpenOutputStream all env cm devices flags config stream_out).cm = cm := by
      unfold adevOpenOutputStream
      simp only [h]
      exact getStream_of_none h
    rw [hr]
    exact ⟨rfl, rfl⟩
  | some hw =>
    obtain ⟨hfails, hleft⟩ := open_granted all env cm devices flags config stream_out h
    constructor
    · intro huntouched
      refine Or.inr ?_
      by_contra hnot
      exact hleft (huntouched (hfails.mpr hnot))
    · rintro (hnone | hok) hneg
      · cases hnone
      · exact absurd hok (hfails.mp hneg)

/-- One compress stream for one user. -/
def compressConfig : ConfigMgr where
  devices := [⟨AUDIO_DEVICE_OUT_SPEAKER, 0, pathsWith [e_path_id_on, e_path_id_off]⟩]
  streams := [⟨.out_compress, none, 0, 1, -1, -1, 0⟩]

/-- Opus at 48 kHz, which has no codec here. -/
def opusConfig : AudioConfig := ⟨48000, 3, 0x08000000⟩

def workingEnv : Env := ⟨true, 1, fun _ => 0, fun _ => 0, some (4096, 4)⟩

/-- A refused format keeps the stream's one reference and the speaker on. -/
theorem refused_format_leaks :
    ¬ ∀ (all : AllDevices) (env : Env) (cm : ConfigMgr) (devices : Mask) (flags : BitVec 32)
      (config : AudioConfig) (stream_out : Option StreamOut),
      let r := adevOpenOutputStream all env cm devices flags config stream_out
      r.ret < 0 → Untouched cm r.cm := by
  intro h
  have hbad := h platformDevices workingEnv compressConfig AUDIO_DEVICE_OUT_SPEAKER 0 opusConfig none
  revert hbad
  decide

end MochaHal.Audio.Output
