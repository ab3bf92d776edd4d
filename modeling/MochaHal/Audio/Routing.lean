import MochaHal.Lib.Reach

/-! Routing in `configmgr/audio_config.c`: devices with their paths, streams, and
`get_stream`, `get_named_stream`, `apply_route` and `release_stream`.  Every call
returns the paths it has applied, in order; applying a path sets its mixer controls. -/

namespace MochaHal.Audio
open MochaHal.Reach

/-- A set of `AUDIO_DEVICE_` flags. -/
abbrev Mask := BitVec 32

def AUDIO_DEVICE_BIT_IN : Mask := 0x80000000

def AUDIO_DEVICE_OUT_EARPIECE : Mask := 0x1
def AUDIO_DEVICE_OUT_SPEAKER : Mask := 0x2
def AUDIO_DEVICE_OUT_WIRED_HEADSET : Mask := 0x4
def AUDIO_DEVICE_OUT_WIRED_HEADPHONE : Mask := 0x8
def AUDIO_DEVICE_OUT_ALL_SCO : Mask := 0x70
def AUDIO_DEVICE_OUT_ALL_A2DP : Mask := 0x380
def AUDIO_DEVICE_OUT_ALL_USB : Mask := 0x6000
def AUDIO_DEVICE_IN_BUILTIN_MIC : Mask := 0x80000004
def AUDIO_DEVICE_IN_ALL_SCO : Mask := 0x80000008
def AUDIO_DEVICE_IN_WIRED_HEADSET : Mask := 0x80000010
def AUDIO_DEVICE_IN_AUX_DIGITAL : Mask := 0x80000020
def AUDIO_DEVICE_IN_VOICE_CALL : Mask := 0x80000040
def AUDIO_DEVICE_IN_BACK_MIC : Mask := 0x80000080

/-- The types a configuration can name; 0 is the global device. -/
def deviceTable : List (String × Mask) :=
  [("global", 0),
   ("speaker", AUDIO_DEVICE_OUT_SPEAKER),
   ("earpiece", AUDIO_DEVICE_OUT_EARPIECE),
   ("headset", AUDIO_DEVICE_OUT_WIRED_HEADSET),
   ("headset_in", AUDIO_DEVICE_IN_WIRED_HEADSET),
   ("headphone", AUDIO_DEVICE_OUT_WIRED_HEADPHONE),
   ("sco", AUDIO_DEVICE_OUT_ALL_SCO),
   ("sco_in", AUDIO_DEVICE_IN_ALL_SCO),
   ("a2dp", AUDIO_DEVICE_OUT_ALL_A2DP),
   ("usb", AUDIO_DEVICE_OUT_ALL_USB),
   ("mic", AUDIO_DEVICE_IN_BUILTIN_MIC),
   ("back mic", AUDIO_DEVICE_IN_BACK_MIC),
   ("voice", AUDIO_DEVICE_IN_VOICE_CALL),
   ("aux", AUDIO_DEVICE_IN_AUX_DIGITAL)]

/-- `AUDIO_DEVICE_IN_ALL` and `AUDIO_DEVICE_OUT_ALL`, which contain the types of the
table. -/
structure AllDevices where
  inAll : Mask
  outAll : Mask
  covers : ∀ d ∈ deviceTable, d.2 &&& (if d.2 &&& AUDIO_DEVICE_BIT_IN = 0 then outAll else inAll) = d.2

/-! ## Paths, devices and streams -/

def e_path_id_off : Int := 0
def e_path_id_on : Int := 1

structure Ctl where
  name : String
  index : BitVec 32
  value : String
  deriving DecidableEq, Repr

structure Path where
  id : Int
  ctls : List Ctl
  deriving DecidableEq, Repr

structure Device where
  type : Mask
  use_count : Int
  paths : List Path
  deriving DecidableEq, Repr

inductive StreamType
  | out_pcm
  | in_pcm
  | out_compress
  | in_compress
  | out_hw
  | in_hw
  | global
  deriving DecidableEq, Repr

structure Stream where
  type : StreamType
  name : Option String
  ref_count : Int
  max_ref_count : Int
  enable_path : Int
  disable_path : Int
  current_devices : Mask
  deriving DecidableEq, Repr

/-- `stream_is_input`. -/
def Stream.isInput (s : Stream) : Bool :=
  s.type = .in_pcm || s.type = .in_compress || s.type = .in_hw

structure ConfigMgr where
  devices : List Device
  streams : List Stream
  deriving DecidableEq, Repr

/-- A path that was applied, with the index of its device. -/
structure Applied where
  device : Nat
  path : Path
  deriving DecidableEq, Repr

/-! ## Applying paths -/

/-- The device and what was applied: the on and off paths are counted. -/
def applyDevicePath (dev : Device) (path : Path) : Device × List Path :=
  if path.id = e_path_id_off then
    let dev := { dev with use_count := dev.use_count - 1 }
    if dev.use_count > 0 then (dev, []) else (dev, [path])
  else if path.id = e_path_id_on then
    let dev := { dev with use_count := dev.use_count + 1 }
    if dev.use_count > 1 then (dev, []) else (dev, [path])
  else (dev, [path])

/-- The walk of the path list that looks for both ids at once. -/
def findPaths (first second : Int) : List Path → Option Path × Option Path → Option Path × Option Path
  | [], found => found
  | path :: rest, found =>
    if path.id = first then
      if found.2.isSome ∨ first = second then (some path, found.2)
      else findPaths first second rest (some path, found.2)
    else if path.id = second then
      if found.1.isSome then (found.1, some path)
      else findPaths first second rest (found.1, some path)
    else findPaths first second rest found

def applyFound (dev : Device) : Option Path → Device × List Path
  | none => (dev, [])
  | some path => applyDevicePath dev path

def applyPathsById (dev : Device) (first second : Int) : Device × List Path :=
  let found := findPaths first second dev.paths (none, none)
  let r := applyFound dev found.1
  let r' := applyFound r.1 found.2
  (r'.1, r.2 ++ r'.2)

/-- The loop of `apply_paths_to_devices_l` from the device with index `i` on. -/
def applyPathsLoop (first second : Int) (inputFlag : Mask) (devices : Mask) (i : Nat) :
    List Device → List Device × List Applied
  | [] => ([], [])
  | dev :: rest =>
    if devices = 0 then (dev :: rest, [])
    else if dev.type &&& inputFlag = inputFlag ∧ dev.type &&& devices ≠ 0 then
      let r := applyPathsById dev first second
      let r' := applyPathsLoop first second inputFlag (devices &&& ~~~dev.type) (i + 1) rest
      (r.1 :: r'.1, r.2.map (Applied.mk i) ++ r'.2)
    else
      let r' := applyPathsLoop first second inputFlag devices (i + 1) rest
      (dev :: r'.1, r'.2)

def applyPathsToDevices (devs : List Device) (devices : Mask) (first second : Int) :
    List Device × List Applied :=
  applyPathsLoop first second (devices &&& AUDIO_DEVICE_BIT_IN) (devices &&& ~~~AUDIO_DEVICE_BIT_IN) 0
    devs

/-- The loop of `apply_paths_to_global_l`: the first device of type 0. -/
def applyGlobalLoop (first second : Int) (i : Nat) : List Device → List Device × List Applied
  | [] => ([], [])
  | dev :: rest =>
    if dev.type = 0 then
      let r := applyPathsById dev first second
      (r.1 :: rest, r.2.map (Applied.mk i))
    else
      let r' := applyGlobalLoop first second (i + 1) rest
      (dev :: r'.1, r'.2)

def applyPathsToGlobal (devs : List Device) (first second : Int) : List Device × List Applied :=
  applyGlobalLoop first second 0 devs

/-! ## apply_route -/

/-- The devices that `apply_route` stores, unless it refuses. -/
def newDevices (all : AllDevices) (s : Stream) (devices : Mask) : Option Mask :=
  if devices = 0 then some 0
  else if devices &&& AUDIO_DEVICE_BIT_IN ≠ 0 then
    if s.isInput then some (devices &&& all.inAll ||| AUDIO_DEVICE_BIT_IN) else none
  else if s.isInput then none
  else some (devices &&& all.outAll)

def enabling (s : Stream) (devices : Mask) : Mask := devices &&& ~~~s.current_devices
def disabling (s : Stream) (devices : Mask) : Mask := ~~~devices &&& s.current_devices

def applyRoute (all : AllDevices) (cm : ConfigMgr) (i : Nat) (s : Stream) (devices : Mask) :
    ConfigMgr × List Applied :=
  match newDevices all s devices with
  | none => (cm, [])
  | some new =>
    let r := applyPathsToDevices cm.devices (disabling s devices) s.disable_path e_path_id_off
    let r' := applyPathsToDevices r.1 (enabling s devices) e_path_id_on s.enable_path
    (⟨r'.1, cm.streams.set i { s with current_devices := new }⟩, r.2 ++ r'.2)

/-! ## Streams -/

/-- A stream below its maximum is counted, and opened if nobody had it. -/
def openStream (cm : ConfigMgr) (i : Nat) (s : Stream) : Option (ConfigMgr × List Applied) :=
  if s.ref_count < s.max_ref_count then
    let s := { s with ref_count := s.ref_count + 1 }
    let r := if s.ref_count = 1 then applyPathsToGlobal cm.devices e_path_id_on s.enable_path
      else (cm.devices, [])
    some (⟨r.1, cm.streams.set i s⟩, r.2)
  else none

def requiredType (devices : Mask) (pcm : Bool) : StreamType :=
  if devices &&& AUDIO_DEVICE_BIT_IN ≠ 0 then if pcm then .in_pcm else .in_compress
  else if pcm then .out_pcm else .out_compress

/-- The loop of `get_stream` over the `n` streams that are left, last one first. -/
def getStreamLoop (cm : ConfigMgr) (type : StreamType) : Nat → ConfigMgr × Option Nat × List Applied
  | 0 => (cm, none, [])
  | n + 1 =>
    match cm.streams[n]? with
    | none => getStreamLoop cm type n
    | some s =>
      if s.type = type then
        match openStream cm n s with
        | some r => (r.1, some n, r.2)
        | none => getStreamLoop cm type n
      else getStreamLoop cm type n

def getStream (cm : ConfigMgr) (devices : Mask) (pcm : Bool) : ConfigMgr × Option Nat × List Applied :=
  getStreamLoop cm (requiredType devices pcm) cm.streams.length

def getNamedStream (cm : ConfigMgr) (name : String) : ConfigMgr × Option Nat × List Applied :=
  match cm.streams.findIdx? fun s => s.name = some name with
  | none => (cm, none, [])
  | some i =>
    match cm.streams[i]? with
    | none => (cm, none, [])
    | some s =>
      match openStream cm i s with
      | some r => (r.1, some i, r.2)
      | none => (cm, none, [])

def releaseStream (cm : ConfigMgr) (i : Nat) (s : Stream) : ConfigMgr × List Applied :=
  let s := { s with ref_count := s.ref_count - 1 }
  if s.ref_count = 0 then
    let r := applyPathsToDevices cm.devices s.current_devices e_path_id_off s.disable_path
    let r' := applyPathsToGlobal r.1 s.disable_path e_path_id_off
    (⟨r'.1, cm.streams.set i { s with current_devices := 0 }⟩, r.2 ++ r'.2)
  else (⟨cm.devices, cm.streams.set i s⟩, [])

/-! ## Runs -/

inductive Call
  | getStream (devices : Mask) (pcm : Bool)
  | getNamedStream (name : String)
  | applyRoute (i : Nat) (devices : Mask)
  | releaseStream (i : Nat)
  deriving DecidableEq, Repr

/-- A stream is named by its index. -/
def ConfigMgr.step (all : AllDevices) (cm : ConfigMgr) : Call → ConfigMgr × List Applied
  | .getStream devices pcm => let r := Audio.getStream cm devices pcm; (r.1, r.2.2)
  | .getNamedStream name => let r := Audio.getNamedStream cm name; (r.1, r.2.2)
  | .applyRoute i devices =>
    match cm.streams[i]? with
    | some s => Audio.applyRoute all cm i s devices
    | none => (cm, [])
  | .releaseStream i =>
    match cm.streams[i]? with
    | some s => Audio.releaseStream cm i s
    | none => (cm, [])

/-- What the parser leaves: devices of the table, each at most once apart from the
global one, and closed streams. -/
structure ConfigMgr.Parsed (cm : ConfigMgr) : Prop where
  in_table : ∀ dev ∈ cm.devices, dev.type ∈ deviceTable.map Prod.snd
  distinct : cm.devices.Pairwise fun a b => a.type ≠ 0 → a.type ≠ b.type
  unused : ∀ dev ∈ cm.devices, dev.use_count = 0
  closed : ∀ s ∈ cm.streams, s.ref_count = 0 ∧ s.current_devices = 0

/-- One call of a run: the manager before and after it, and what it applied. -/
structure Event where
  before : ConfigMgr
  call : Call
  applied : List Applied
  after : ConfigMgr

/-- A manager with the calls made so far. -/
structure Session where
  cm : ConfigMgr
  log : List Event

/-- The stream of a call is one of the manager's. -/
def Call.Valid (cm : ConfigMgr) : Call → Prop
  | .applyRoute i _ | .releaseStream i => i < cm.streams.length
  | _ => True

instance (cm : ConfigMgr) (call : Call) : Decidable (call.Valid cm) :=
  match call with
  | .applyRoute i _ | .releaseStream i => inferInstanceAs (Decidable (i < cm.streams.length))
  | .getStream _ _ | .getNamedStream _ => isTrue trivial

def Session.step (all : AllDevices) (s : Session) (call : Call) : Option Session :=
  if call.Valid s.cm then
    let r := s.cm.step all call
    some ⟨r.1, s.log ++ [⟨s.cm, call, r.2, r.1⟩]⟩
  else none

/-- Sessions reached from a parsed configuration in `config`, by calls that meet `ok`. -/
abbrev Run (all : AllDevices) (config : ConfigMgr → Prop) (ok : ConfigMgr → Call → Prop) : Session → Prop :=
  Reachable (fun s => s.cm.Parsed ∧ config s.cm ∧ s.log = [])
    (fun s call s' => s.step all call = some s') (fun s call => ok s.cm call)

/-! ## The configuration of the device -/

/-- The masks of the platform. -/
def platformDevices : AllDevices := ⟨0xC007FFFF, 0x407FFFFF, by decide⟩

/-- The paths of `audio.mocha.xml` by their ids, the controls left out: "on_pcm" is 2,
"off_pcm" is 3, "on_pcm_rec" is 4 and "off_pcm_rec" is 5. -/
def pathsWith (ids : List Int) : List Path := ids.map fun id => ⟨id, []⟩

/-- The devices and streams of `audio.mocha.xml`; it has no "off" path. -/
def mochaConfig : ConfigMgr where
  devices :=
    [⟨AUDIO_DEVICE_OUT_SPEAKER, 0, pathsWith [e_path_id_on, 2, 3]⟩,
     ⟨AUDIO_DEVICE_OUT_WIRED_HEADPHONE, 0, pathsWith [e_path_id_on, 2, 3]⟩,
     ⟨AUDIO_DEVICE_OUT_WIRED_HEADSET, 0, pathsWith [e_path_id_on, 2, 3]⟩,
     ⟨AUDIO_DEVICE_IN_WIRED_HEADSET, 0, pathsWith [4, 5]⟩,
     ⟨AUDIO_DEVICE_IN_BUILTIN_MIC, 0, pathsWith [e_path_id_on, 4, 5]⟩]
  streams :=
    [⟨.out_pcm, none, 0, 2 ^ 31 - 1, 2, 3, 0⟩, ⟨.in_pcm, none, 0, 2 ^ 31 - 1, 4, 5, 0⟩]

theorem mochaConfig_parsed : mochaConfig.Parsed := ⟨by decide, by decide, by decide, by decide⟩

end MochaHal.Audio
