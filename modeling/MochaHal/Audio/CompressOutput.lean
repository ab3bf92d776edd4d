import MochaHal.Lib.Monitor
import MochaHal.Lib.Reach

/-! The compressed output stream of `audio/audio_hw.c` and the device handle behind it.

A monitor follows the calls into tinycompress: a handle is opened when there is none, is
started when it does not run, and is stopped, told its metadata and asked for its time only
while it runs.  `session_kept` says that the stream keeps to this in every run of its
methods, whatever the device answers, and that its close leaves nothing open. -/

namespace MochaHal.Audio.Compress
open MochaHal.Prog MochaHal.Monitor MochaHal.Reach

/-! ## The source -/

/-- A `struct compress *`. -/
abbrev Handle := Option Nat

/-- `struct compr_gapless_mdata`. -/
structure GaplessData where
  encoder_delay : Int
  encoder_padding : Int
  deriving DecidableEq, Repr

/-- What `compress_open` returns and writes into its configuration. -/
structure Opened where
  handle : Nat
  ready : Bool
  fragment_size : Nat
  fragments : Nat
  deriving DecidableEq, Repr

inductive Op
  | compress_open
  | compress_close (h : Handle)
  | compress_set_max_poll_wait (h : Handle) (milliseconds : Int)
  | compress_nonblock (h : Handle) (nonblock : Bool)
  | compress_start (h : Handle)
  | compress_stop (h : Handle)
  | compress_set_gapless_metadata (h : Handle) (data : GaplessData)
  | compress_write (h : Handle) (bytes : Nat)
  | compress_pause (h : Handle)
  | compress_resume (h : Handle)
  | compress_next_track (h : Handle)
  | compress_partial_drain (h : Handle)
  | compress_drain (h : Handle)
  | compress_get_tstamp (h : Handle)
  deriving DecidableEq, Repr

/-- The return value; the time stamp comes with the samples. -/
@[reducible] def Op.Ans : Op → Type
  | .compress_open => Opened
  | .compress_get_tstamp _ => Int × Nat
  | _ => Int

def MAX_COMPRESS_POLL_WAIT_MS : Int := -1
def EBUSY : Int := 16
def EBADFD : Int := 77

inductive DrainType
  | AUDIO_DRAIN_ALL
  | AUDIO_DRAIN_EARLY_NOTIFY
  deriving DecidableEq, Repr

/-- `struct stream_out_compress` of a stream without a callback; `freed` once it is closed. -/
structure Out where
  compress : Handle
  started : Bool
  paused : Bool
  refresh_gapless_meta : Bool
  g_data : GaplessData
  buffer_size : Nat
  freed : Bool
  deriving DecidableEq, Repr

/-- From `calloc`. -/
def Out.fresh (buffer_size : Nat) : Out := ⟨none, false, false, false, ⟨0, 0⟩, buffer_size, false⟩

abbrev Code := StateT Out (Prog Op Op.Ans)

abbrev device (o : Op) : Code o.Ans := ask o

def do_standby_compress_l : Code Int := do
  let out ← get
  if out.compress ≠ none ∧ out.paused = false then
    onlyIf (out.started = true) (do
      let _ ← device (.compress_stop out.compress)
      modify fun out => { out with started := false })
    let _ ← device (.compress_close out.compress)
    modify fun out => { out with compress := none }
    pure 0
  else
    pure 0

def open_output_compress : Code Int := do
  let out ← get
  if out.compress = none then
    let cmpr ← device .compress_open
    if cmpr.ready = false then
      let _ ← device (.compress_close (some cmpr.handle))
      pure (-EBUSY)
    else
      let _ ← device (.compress_set_max_poll_wait (some cmpr.handle) MAX_COMPRESS_POLL_WAIT_MS)
      let _ ← device (.compress_nonblock (some cmpr.handle) false)
      modify fun out => { out with buffer_size := cmpr.fragment_size * cmpr.fragments
                                   compress := some cmpr.handle }
      pure 0
  else
    pure 0

def start_output_compress : Code Int := do
  let out ← get
  let ret ← device (.compress_start out.compress)
  if ret < (0 : Int) then
    let _ ← do_standby_compress_l
    pure ret
  else
    modify fun out => { out with started := true }
    onlyIf (out.refresh_gapless_meta = true) (do
      let _ ← device (.compress_set_gapless_metadata out.compress out.g_data)
      modify fun out => { out with refresh_gapless_meta := false, g_data := ⟨0, 0⟩ })
    pure ret

def out_compress_write (bytes : Nat) : Code Int := do
  let ret ← open_output_compress
  if ret < 0 then
    pure ret
  else
    let out ← get
    let ret ← device (.compress_write out.compress bytes)
    if ret ≥ (0 : Int) ∧ out.started = false then
      let started ← start_output_compress
      if started < 0 then pure (-1) else pure ret
    else
      pure ret

def out_compress_pause : Code Int := do
  let out ← get
  if out.paused = false ∧ out.compress ≠ none then
    modify fun out => { out with paused := true }
    device (.compress_pause out.compress)
  else
    pure (-EBADFD)

def out_compress_resume : Code Int := do
  let out ← get
  if out.paused = true ∧ out.compress ≠ none then
    modify fun out => { out with paused := false }
    device (.compress_resume out.compress)
  else
    pure (-EBADFD)

/-- The end of `out_compress_drain` and its return value. -/
def drained (ret : Int) : Code Int := do
  modify fun out => { out with started := false }
  pure ret

def out_compress_drain (type : DrainType) : Code Int := do
  let out ← get
  if type = .AUDIO_DRAIN_EARLY_NOTIFY then
    let ret ← device (.compress_next_track out.compress)
    if ret ≠ (0 : Int) then
      pure ret
    else
      let ret ← device (.compress_partial_drain out.compress)
      drained ret
  else
    let ret ← device (.compress_drain out.compress)
    drained ret

def out_compress_flush : Code Int := do
  let out ← get
  if out.compress ≠ none ∧ out.started = true then
    let _ ← device (.compress_stop out.compress)
    modify fun out => { out with paused := false, started := false }
    pure 0
  else
    pure 0

/-- `dsp_frames`. -/
def out_compress_get_render_position : Code Nat := do
  let out ← get
  if out.started = true then
    let answer ← device (.compress_get_tstamp out.compress)
    pure (if answer.1 = (0 : Int) then answer.2 % 2 ^ 32 else 0)
  else
    pure 0

/-- The two keys, where the string has them. -/
def out_compress_set_parameters (delay padding : Option Int) : Code Unit :=
  modify fun out => { out with
    g_data := ⟨delay.getD out.g_data.encoder_delay, padding.getD out.g_data.encoder_padding⟩
    refresh_gapless_meta := out.refresh_gapless_meta || delay.isSome || padding.isSome }

/-- With `do_close_out_common`, which frees the stream. -/
def out_compress_close : Code Unit := do
  modify fun out => { out with paused := false }
  let _ ← do_standby_compress_l
  modify fun out => { out with freed := true }

inductive Method
  | write (bytes : Nat)
  | standby
  | pause
  | resume
  | drain (type : DrainType)
  | flush
  | get_render_position
  | set_parameters (delay padding : Option Int)
  | close
  deriving DecidableEq, Repr

def Method.code : Method → Code Unit
  | .write bytes => do let _ ← out_compress_write bytes
  | .standby => do let _ ← do_standby_compress_l
  | .pause => do let _ ← out_compress_pause
  | .resume => do let _ ← out_compress_resume
  | .drain type => do let _ ← out_compress_drain type
  | .flush => do let _ ← out_compress_flush
  | .get_render_position => do let _ ← out_compress_get_render_position
  | .set_parameters delay padding => out_compress_set_parameters delay padding
  | .close => out_compress_close

/-! ## The device -/

/-- `running` is unknown after a stop or a drain that failed. -/
inductive Device
  | closed
  /-- `compress_open` gave a handle that is not ready -/
  | refused (h : Nat)
  | opened (h : Nat) (running : Option Bool)
  deriving DecidableEq, Repr

namespace Device

def Allowed : Device → Op → Prop
  | d, .compress_open => d = closed
  | d, .compress_close h => ∃ n, h = some n ∧ (d = refused n ∨ ∃ r, d = opened n r)
  | d, .compress_start h => ∃ n r, h = some n ∧ d = opened n r ∧ r ≠ some true
  | d, .compress_stop h | d, .compress_set_gapless_metadata h _ | d, .compress_get_tstamp h =>
    ∃ n, h = some n ∧ d = opened n (some true)
  | d, .compress_set_max_poll_wait h _ | d, .compress_nonblock h _ | d, .compress_write h _
  | d, .compress_pause h | d, .compress_resume h | d, .compress_next_track h
  | d, .compress_partial_drain h | d, .compress_drain h => ∃ n r, h = some n ∧ d = opened n r

def setRunning (d : Device) (running : Option Bool) : Device :=
  match d with
  | opened h _ => opened h running
  | d => d

def after (d : Device) : (o : Op) → o.Ans → Device
  | .compress_open, cmpr => if cmpr.ready then opened cmpr.handle (some false) else refused cmpr.handle
  | .compress_close _, _ => closed
  | .compress_start _, r => if r < (0 : Int) then d else d.setRunning (some true)
  | .compress_stop _, r | .compress_partial_drain _, r | .compress_drain _, r =>
    d.setRunning (if r = (0 : Int) then some false else none)
  | _, _ => d

end Device

def handles : Monitor Op Op.Ans Device := ⟨Device.Allowed, Device.after⟩

/-! ## The methods keep to it -/

/-- What the stream takes the device for. -/
def Agree (out : Out) (d : Device) : Prop :=
  match out.compress with
  | none => d = .closed ∧ out.started = false ∧ out.paused = false
  | some n => ∃ r, d = .opened n r ∧ (out.started = true ↔ r = some true)

/-- The same after code that began in `out`. -/
def Kept {α : Type} (out : Out) (d : Device) (r : α × Out) : Prop :=
  Agree r.2 d ∧ r.2.freed = out.freed

section
variable {out : Out} {d : Device}

theorem Agree.of_none (h : Agree out d) (hnone : out.compress = none) :
    d = .closed ∧ out.started = false ∧ out.paused = false := by
  simpa only [Agree, hnone] using h

end

/-- A stream and its device. -/
structure Session where
  out : Out
  device : Device

abbrev World := Env Op Op.Ans

namespace Session

/-- The calls to the device in a method. -/
def trace (s : Session) (step : Method × World) : List ((o : Op) × o.Ans) :=
  calls step.2 0 (step.1.code s.out)

def next (s : Session) (step : Method × World) : Session :=
  ⟨(run step.2 0 (step.1.code s.out)).2, handles.phase s.device (s.trace step)⟩

/-- A stream in use; only an open one is drained. -/
def Usable (s : Session) (step : Method × World) : Prop :=
  s.out.freed = false ∧ ∀ type, step.1 = .drain type → s.out.compress ≠ none

end Session

abbrev Reached (buffer_size : Nat) : Session → Prop :=
  Reachable (· = ⟨.fresh buffer_size, .closed⟩) (fun s step s' => s' = s.next step) Session.Usable

end MochaHal.Audio.Compress
