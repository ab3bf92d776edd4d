import MochaHal.Lib.Entries
import MochaHal.Audio.OutputOpen
import MochaHal.Audio.ReadPacing

/-! The divisions of `audio/audio_hw.c`.  A rate of 0 is a request for the default, which
`out_get_sample_rate` and `in_get_sample_rate` answer with the rate of the stream's entry,
but the rate that was requested is what a new output and a paced input divide by.
`divisors_nonzero_iff` says for which requests no run divides by 0. -/

namespace MochaHal.Audio.Divisors
open MochaHal.Bits MochaHal.Entries MochaHal.Audio.Pacing MochaHal.Audio.Output

/-! ## The source -/

def IN_PERIOD_SIZE_DEFAULT : BitVec 32 := 256
def IN_PERIOD_COUNT_DEFAULT : BitVec 32 := 4
def IN_CHANNEL_COUNT_DEFAULT : BitVec 32 := 1
def IN_RATE_DEFAULT : BitVec 32 := 44100
def OUT_CHANNEL_COUNT_DEFAULT : BitVec 32 := 2
def OUT_RATE_DEFAULT : BitVec 32 := 44100
def IN_COMPRESS_BUFFER_SIZE_DEFAULT : BitVec 32 := 1024
def AUDIO_CHANNEL_IN_MONO : BitVec 32 := 0x10
def AUDIO_CHANNEL_OUT_STEREO : BitVec 32 := 0x3

/-- The functions that divide by something other than a constant. -/
inductive Site
  | do_init_out_pcm
  | out_pcm_fill_params
  | in_pcm_fill_params
  | start_compress_pcm_input_stream
  | do_in_realtime_delay
  | do_in_pcm_read
  | in_resampler_init
  deriving DecidableEq, Repr

/-- A computation that a division by 0 ends. -/
abbrev Eval (α : Type) : Type := Except Site α

def divideAt (site : Site) (a b : BitVec 32) : Eval (BitVec 32) :=
  match divide a b with
  | none => .error site
  | some q => .ok q

/-- `struct hw_stream`. -/
structure HwStream where
  type : StreamType
  rate : BitVec 32
  period_size : BitVec 32
  period_count : BitVec 32
  deriving DecidableEq, Repr

/-- `struct pcm_config`, as far as it is computed. -/
structure PcmConfig where
  channels : BitVec 32
  rate : BitVec 32
  period_size : BitVec 32
  period_count : BitVec 32

/-- A value that is taken unless it is 0. -/
def orDefault (v default : BitVec 32) : BitVec 32 := if v ≠ 0 then v else default

/-- The size of a frame, which the system's headers compute from the format and the
channels that a stream reports. -/
abbrev FrameSize := (format channels : BitVec 32) → BitVec 32

/-! ### Outputs -/

/-- `stream_out_pcm`. -/
structure OutPcm where
  hw : HwStream
  standby : Bool
  format : BitVec 32
  channel_mask : BitVec 32
  channel_count : BitVec 32
  sample_rate : BitVec 32
  frame_size : BitVec 32
  buffer_size : BitVec 32
  latency : BitVec 32
  hw_sample_rate : BitVec 32
  hw_channel_count : BitVec 32
  deriving DecidableEq

/-- `do_init_out_common`; `out_get_channels` has a default too. -/
def initOut (F : FrameSize) (hw : HwStream) (config : AudioConfig) : OutPcm where
  hw := hw
  standby := true
  format := config.format
  channel_mask := config.channel_mask
  channel_count := BitVec.ofNat 32 (popcount config.channel_mask)
  sample_rate := config.sample_rate
  frame_size := F config.format (orDefault config.channel_mask AUDIO_CHANNEL_OUT_STEREO)
  buffer_size := 0
  latency := 0
  hw_sample_rate := 0
  hw_channel_count := 0

def outPcmConfig (out : OutPcm) : PcmConfig where
  channels := orDefault out.channel_count OUT_CHANNEL_COUNT_DEFAULT
  rate := orDefault out.hw.rate OUT_RATE_DEFAULT
  period_size := orDefault out.hw.period_size OUT_PERIOD_SIZE_DEFAULT
  period_count := orDefault out.hw.period_count OUT_PERIOD_COUNT_DEFAULT

def doInitOutPcm (out : OutPcm) : Eval OutPcm := do
  let config := outPcmConfig out
  let latency ← divideAt .do_init_out_pcm (config.period_size * config.period_count * 1000) out.sample_rate
  .ok { out with buffer_size := config.period_size * out.frame_size, latency := latency }

def outPcmFillParams (period_bytes : BitVec 32) (out : OutPcm) (config : PcmConfig) : Eval OutPcm := do
  let latency ← divideAt .out_pcm_fill_params (config.period_size * config.period_count * 1000) config.rate
  .ok { out with
    hw_sample_rate := config.rate
    hw_channel_count := config.channels
    buffer_size := period_bytes
    latency := latency }

/-- What `out_pcm_write` finds: whether the stream has routes, whether its device is ready
and how many bytes it has in a period. -/
structure WriteEnv where
  routes : Bool
  pcm_ready : Bool
  period_bytes : BitVec 32

/-- `out_pcm_write`, which starts the stream. -/
def outPcmWrite (env : WriteEnv) (out : OutPcm) : Eval OutPcm :=
  if env.routes = false then .ok out
  else if out.standby = false then .ok out
  else if env.pcm_ready = false then .ok out
  else do
    let out ← outPcmFillParams env.period_bytes out (outPcmConfig out)
    .ok { out with standby := false }

def outPcmStandby (out : OutPcm) : OutPcm := { out with standby := true }

/-! ### Inputs -/

/-- `stream_in_pcm`. -/
structure InPcm extends InCommon where
  hw : Option HwStream
  standby : Bool
  format : BitVec 32
  channel_mask : BitVec 32
  channel_count : BitVec 32
  buffer_size : BitVec 32
  hw_sample_rate : BitVec 32
  hw_channel_count : BitVec 32
  period_size : BitVec 32
  max_poll_wait : BitVec 32
  deriving DecidableEq

/-- `do_init_in_common` and `do_init_in_pcm`. -/
def initIn (F : FrameSize) (config : AudioConfig) : InPcm where
  sample_rate := config.sample_rate
  frame_size := F config.format (orDefault config.channel_mask AUDIO_CHANNEL_IN_MONO)
  last_read_ns := 0
  hw := none
  standby := true
  format := config.format
  channel_mask := config.channel_mask
  channel_count := BitVec.ofNat 32 (popcount config.channel_mask)
  buffer_size := IN_COMPRESS_BUFFER_SIZE_DEFAULT
  hw_sample_rate := 0
  hw_channel_count := 0
  period_size := 0
  max_poll_wait := 0

def inPcmConfig (strm : InPcm) (hw : HwStream) : PcmConfig where
  channels := orDefault strm.channel_count IN_CHANNEL_COUNT_DEFAULT
  rate := orDefault hw.rate IN_RATE_DEFAULT
  period_size := orDefault hw.period_size IN_PERIOD_SIZE_DEFAULT
  period_count := orDefault hw.period_count IN_PERIOD_COUNT_DEFAULT

/-- What a read finds: the routes, how its device opens, the result of the read and the
times. -/
structure ReadEnv where
  routes : Bool
  compress_open : Except Int (BitVec 32 × BitVec 32)
  pcm_ready : Bool
  period_bytes : BitVec 32
  resampler : Int
  ret : Int
  delay_time : Int
  read_time : Int

def inPcmFillParams (strm : InPcm) (config : PcmConfig) : Eval InPcm := do
  let size ← divideAt .in_pcm_fill_params (config.period_size * strm.sample_rate) config.rate
  .ok { strm with
    hw_sample_rate := config.rate
    hw_channel_count := config.channels
    period_size := config.period_size
    buffer_size := (size + 15) / 16 * 16 * strm.frame_size }

/-- `in_resampler_init`: its code. -/
def inResamplerInit (strm : InPcm) (result : Int) (channels hw_fragment : BitVec 32) : Eval Int := do
  let in_buffer_size := hw_fragment * channels * strm.frame_size
  let _ ← divideAt .in_resampler_init in_buffer_size (channels * strm.frame_size)
  .ok result

/-- `start_pcm_input_stream`, with a stream. -/
def startPcmInputStream (env : ReadEnv) (hw : HwStream) (strm : InPcm) : Eval (Int × InPcm) :=
  if strm.standby = false then .ok (0, strm)
  else if env.pcm_ready = false then .ok (-ENOMEM, strm)
  else do
    let config := inPcmConfig strm hw
    let strm ← inPcmFillParams strm config
    if orDefault strm.sample_rate hw.rate ≠ config.rate then
      let ret ← inResamplerInit strm env.resampler config.channels env.period_bytes
      if ret < 0 then .ok (ret, strm) else .ok (0, { strm with standby := false })
    else .ok (0, { strm with standby := false })

def doInPcmRead (env : ReadEnv) (hw : HwStream) (strm : InPcm) (bytes : BitVec 32) : Eval (Int × InPcm) := do
  let _ ← divideAt .do_in_pcm_read bytes strm.frame_size
  let (ret, strm) ← startPcmInputStream env hw strm
  if ret < 0 then .ok (ret, strm)
  else .ok (if env.ret ≥ 0 then bytes.toInt else env.ret, strm)

/-- `do_in_realtime_delay`: the sleep is taken from outside, as the times are. -/
def realtimeDelay (systemTime : Int) (strm : InPcm) (bytes : BitVec 32) : Eval Unit :=
  match doInRealtimeDelay systemTime strm.toInCommon bytes with
  | none => .error .do_in_realtime_delay
  | some _ => .ok ()

/-- `start_compress_pcm_input_stream`, with a stream.  A device that does not open leaves
`errno`, which is not negative, so the stream starts nevertheless. -/
def startCompressPcmInputStream (env : ReadEnv) (strm : InPcm) : Eval (Int × InPcm) :=
  if strm.standby = false then .ok (0, strm)
  else
    let opened : Int × InPcm :=
      match env.compress_open with
      | .error errno => (errno, strm)
      | .ok (fragment_size, fragments) =>
        (0, { strm with buffer_size := fragment_size * fragments * strm.frame_size })
    if opened.1 < 0 then .ok opened
    else
      let divisor := strm.frame_size * strm.sample_rate
      if divisor = 0 then .error .start_compress_pcm_input_stream
      else
        let ms := BitVec.ofNat 32 (1000 * opened.2.buffer_size.toNat / divisor.toNat)
        .ok (0, { opened.2 with max_poll_wait := ms * 2, standby := false })

def doInCompressPcmRead (env : ReadEnv) (strm : InPcm) (bytes : BitVec 32) : Eval (Int × InPcm) := do
  let (ret, strm) ← startCompressPcmInputStream env strm
  if ret < 0 then .ok (ret, strm)
  else if env.ret > 0 then
    realtimeDelay env.delay_time strm (bytes / 4)
    .ok (env.ret, strm)
  else .ok (env.ret, strm)

/-- The part of `in_pcm_read` that gets the data: the result and the stream. -/
def readSource (env : ReadEnv) (strm : InPcm) (bytes : BitVec 32) : Eval (Int × InPcm) :=
  match strm.hw with
  | none => .ok (-EINVAL, strm)
  | some hw =>
    if env.routes = false then .ok (-EINVAL, strm)
    else if hw.type = .in_compress then doInCompressPcmRead env strm bytes
    else doInPcmRead env hw strm bytes

/-- `in_pcm_read`. -/
def inPcmRead (env : ReadEnv) (strm : InPcm) (bytes : BitVec 32) : Eval InPcm := do
  let (ret, strm) ← readSource env strm bytes
  if ret ≤ 0 then realtimeDelay env.delay_time strm bytes
  .ok { strm with toInCommon := doInSetReadTimestamp env.read_time strm.toInCommon }

/-- `in_pcm_standby`: without a stream there is nothing to stop. -/
def inPcmStandby (strm : InPcm) : InPcm := if strm.hw = none then strm else { strm with standby := true }

/-- `change_input_source_locked`, where it finds a stream. -/
def changeInputSource (hw : HwStream) (strm : InPcm) : InPcm :=
  if strm.standby = false then strm else { strm with hw := some hw }

/-! ### Calls -/

/-- The streams that are open. -/
structure Streams where
  outs : List OutPcm
  ins : List InPcm

inductive Call
  | openOutput (config : AudioConfig) (found : Option HwStream) (calloc : Bool)
  | write (i : Nat) (env : WriteEnv)
  | outStandby (i : Nat)
  | openInput (config : AudioConfig) (calloc : Bool)
  | setInputSource (i : Nat) (hw : HwStream)
  | read (i : Nat) (env : ReadEnv) (bytes : BitVec 32)
  | inStandby (i : Nat)

/-- A call.  An output that is not PCM divides nowhere and is left out. -/
def step (F : FrameSize) (dev : Streams) : Call → Eval Streams
  | .openOutput config found calloc =>
    match found with
    | none => .ok dev
    | some hw =>
      if calloc = false ∨ hw.type ≠ .out_pcm then .ok dev
      else do
        let out ← doInitOutPcm (initOut F hw config)
        .ok { dev with outs := dev.outs ++ [out] }
  | .write i env =>
    match dev.outs[i]? with
    | none => .ok dev
    | some out => do
      let out ← outPcmWrite env out
      .ok { dev with outs := dev.outs.set i out }
  | .outStandby i => .ok { dev with outs := dev.outs.modify i outPcmStandby }
  | .openInput config calloc =>
    if calloc = false then .ok dev else .ok { dev with ins := dev.ins ++ [initIn F config] }
  | .setInputSource i hw => .ok { dev with ins := dev.ins.modify i (changeInputSource hw) }
  | .read i env bytes =>
    match dev.ins[i]? with
    | none => .ok dev
    | some strm => do
      let strm ← inPcmRead env strm bytes
      .ok { dev with ins := dev.ins.set i strm }
  | .inStandby i => .ok { dev with ins := dev.ins.modify i inPcmStandby }

/-- The calls up to the first division by 0. -/
def run (F : FrameSize) (calls : List Call) : Eval Streams := calls.foldlM (step F) ⟨[], []⟩

/-! ## Requests -/

/-- The divisor is a rate, or a rate times the size of a frame. -/
def Site.byRate : Site → Bool
  | .do_in_pcm_read | .in_resampler_init => false
  | _ => true

def Call.isOpen : Call → Bool
  | .openOutput .. | .openInput .. => true
  | _ => false

/-- A PCM output is opened with a rate, and an input with a rate that is not 0 in 32 bits
times the size of a frame. -/
def Call.Sound (F : FrameSize) : Call → Prop
  | .openOutput config (some hw) true => hw.type = .out_pcm → config.sample_rate ≠ 0
  | .openInput config true =>
    F config.format (orDefault config.channel_mask AUDIO_CHANNEL_IN_MONO) * config.sample_rate ≠ 0
  | _ => True

/-! ## What holds along a computation -/

/-- The result is in `Q`, or the computation ended at a division by a size. -/
def Safely {α : Type} (Q : α → Prop) : Eval α → Prop
  | .ok a => Q a
  | .error site => site.byRate = false

section

variable {α β : Type} {P : α → Prop} {Q : β → Prop}

theorem safely_bind {r : Eval α} {f : α → Eval β} (h : Safely P r) (hf : ∀ a, P a → Safely Q (f a)) :
    Safely Q (r >>= f) := by
  cases r with
  | error site => exact h
  | ok a => exact hf a h

theorem divideAt_safely (site : Site) (a : BitVec 32) {b : BitVec 32} (h : b ≠ 0) :
    Safely (fun _ => True) (divideAt site a b) := by
  rw [divideAt, divide, if_neg h]
  exact trivial

theorem divideAt_size {site : Site} (h : site.byRate = false) (a b : BitVec 32) :
    Safely (fun _ => True) (divideAt site a b) := by
  rw [divideAt]
  split
  · exact h
  · exact trivial

end

theorem orDefault_ne_zero (v : BitVec 32) {default : BitVec 32} (h : default ≠ 0) : orDefault v default ≠ 0 := by
  unfold orDefault
  split
  · assumption
  · exact h

theorem outPcmConfig_rate (out : OutPcm) : (outPcmConfig out).rate ≠ 0 := orDefault_ne_zero _ (by decide)

theorem inPcmConfig_rate (strm : InPcm) (hw : HwStream) : (inPcmConfig strm hw).rate ≠ 0 :=
  orDefault_ne_zero _ (by decide)

/-! ## Outputs -/

theorem doInitOutPcm_safely {out : OutPcm} (h : out.sample_rate ≠ 0) : Safely (fun _ => True) (doInitOutPcm out) :=
  safely_bind (divideAt_safely _ _ h) fun _ _ => trivial

theorem outPcmFillParams_safely (period_bytes : BitVec 32) (out : OutPcm) {config : PcmConfig} (h : config.rate ≠ 0) :
    Safely (fun _ => True) (outPcmFillParams period_bytes out config) :=
  safely_bind (divideAt_safely _ _ h) fun _ _ => trivial

/-- The rate of the hardware has a default, so a stream that was opened starts. -/
theorem outPcmWrite_safely (env : WriteEnv) (out : OutPcm) : Safely (fun _ => True) (outPcmWrite env out) := by
  unfold outPcmWrite
  split
  · exact trivial
  split
  · exact trivial
  split
  · exact trivial
  · exact safely_bind (outPcmFillParams_safely _ out (outPcmConfig_rate out)) fun _ _ => trivial

/-! ## Inputs -/

/-- What pacing divides by. -/
def InPcm.divisor (strm : InPcm) : BitVec 32 := strm.frame_size * strm.sample_rate

/-- The divisor is what it was. -/
def Same (strm : InPcm) (r : Int × InPcm) : Prop := r.2.divisor = strm.divisor

variable {strm : InPcm}

theorem realtimeDelay_safely (h : strm.divisor ≠ 0) (systemTime : Int) (bytes : BitVec 32) :
    Safely (fun _ => True) (realtimeDelay systemTime strm bytes) := by
  have hdivide : divide (1907 * bytes) (strm.frame_size * strm.sample_rate) ≠ none := by
    rw [divide, if_neg (show ¬ strm.frame_size * strm.sample_rate = 0 from h)]
    exact Option.some_ne_none _
  unfold realtimeDelay
  split
  case h_1 hnone =>
    unfold doInRealtimeDelay at hnone
    split at hnone
    · exact absurd (Option.map_eq_none_iff.mp hnone) hdivide
    · cases hnone
  case h_2 => exact trivial

theorem inPcmFillParams_safely {config : PcmConfig} (h : config.rate ≠ 0) :
    Safely (fun strm' => strm'.divisor = strm.divisor) (inPcmFillParams strm config) :=
  safely_bind (divideAt_safely _ _ h) fun _ _ => rfl

theorem inResamplerInit_safely (result : Int) (channels hw_fragment : BitVec 32) :
    Safely (fun _ => True) (inResamplerInit strm result channels hw_fragment) :=
  safely_bind (divideAt_size rfl _ _) fun _ _ => trivial

theorem startPcmInputStream_safely (env : ReadEnv) (hw : HwStream) :
    Safely (Same strm) (startPcmInputStream env hw strm) := by
  unfold startPcmInputStream
  split
  · exact rfl
  split
  · exact rfl
  · refine safely_bind (inPcmFillParams_safely (inPcmConfig_rate strm hw)) fun strm' hsame => ?_
    split
    · refine safely_bind (inResamplerInit_safely _ _ _) fun ret _ => ?_
      split
      · exact hsame
      · exact hsame
    · exact hsame

theorem doInPcmRead_safely (env : ReadEnv) (hw : HwStream) (bytes : BitVec 32) :
    Safely (Same strm) (doInPcmRead env hw strm bytes) := by
  refine safely_bind (divideAt_size rfl _ _) fun _ _ => ?_
  refine safely_bind (startPcmInputStream_safely env hw) fun r hsame => ?_
  obtain ⟨ret, strm'⟩ := r
  dsimp only
  split
  · exact hsame
  · exact hsame

theorem startCompressPcmInputStream_safely (env : ReadEnv) (h : strm.divisor ≠ 0) :
    Safely (Same strm) (startCompressPcmInputStream env strm) := by
  have hdivisor : ¬ strm.frame_size * strm.sample_rate = 0 := h
  unfold startCompressPcmInputStream
  split
  · exact rfl
  dsimp only
  rw [if_neg hdivisor]
  cases env.compress_open with
  | error errno =>
    dsimp only
    split
    · exact rfl
    · exact rfl
  | ok opened => exact rfl

theorem doInCompressPcmRead_safely (env : ReadEnv) (bytes : BitVec 32) (h : strm.divisor ≠ 0) :
    Safely (Same strm) (doInCompressPcmRead env strm bytes) := by
  refine safely_bind (startCompressPcmInputStream_safely env h) fun r hsame => ?_
  obtain ⟨ret, strm'⟩ := r
  have hsame : strm'.divisor = strm.divisor := hsame
  dsimp only
  split
  · exact hsame
  split
  · exact safely_bind (realtimeDelay_safely (hsame ▸ h) _ _) fun _ _ => hsame
  · exact hsame

theorem readSource_safely (env : ReadEnv) (bytes : BitVec 32) (h : strm.divisor ≠ 0) :
    Safely (Same strm) (readSource env strm bytes) := by
  unfold readSource
  split
  · exact rfl
  split
  · exact rfl
  split
  · exact doInCompressPcmRead_safely env bytes h
  · exact doInPcmRead_safely env _ bytes

/-- A read of an input keeps its divisor. -/
theorem inPcmRead_safely (env : ReadEnv) (bytes : BitVec 32) (h : strm.divisor ≠ 0) :
    Safely (fun strm' => strm'.divisor ≠ 0) (inPcmRead env strm bytes) := by
  refine safely_bind (readSource_safely env bytes h) fun r hsame => ?_
  obtain ⟨ret, strm'⟩ := r
  have hsame : strm'.divisor = strm.divisor := hsame
  dsimp only
  have hstamp : ∀ time,
      ({ strm' with toInCommon := doInSetReadTimestamp time strm'.toInCommon } : InPcm).divisor ≠ 0 := by
    intro time
    exact hsame ▸ h
  split
  · exact safely_bind (realtimeDelay_safely (hsame ▸ h) _ _) fun _ _ => hstamp _
  · exact hstamp _

/-! ## Runs -/

/-- Every open input has a divisor. -/
def Paced (dev : Streams) : Prop := ∀ strm ∈ dev.ins, strm.divisor ≠ 0

theorem paced_modify {dev : Streams} {f : InPcm → InPcm} (h : Paced dev) (i : Nat)
    (hf : ∀ strm, (f strm).divisor = strm.divisor) : Paced { dev with ins := dev.ins.modify i f } := by
  intro strm hstrm
  have hmap : (dev.ins.modify i f).map InPcm.divisor = dev.ins.map InPcm.divisor := map_modify_same hf _ _
  have hmem : strm.divisor ∈ dev.ins.map InPcm.divisor := hmap ▸ List.mem_map_of_mem hstrm
  obtain ⟨strm', hstrm', hsame⟩ := List.mem_map.mp hmem
  exact hsame ▸ h strm' hstrm'

theorem openOutput_safely (F : FrameSize) {dev : Streams} (h : Paced dev) {config : AudioConfig}
    {found : Option HwStream} {calloc : Bool} (hc : (Call.openOutput config found calloc).Sound F) :
    Safely Paced (step F dev (.openOutput config found calloc)) := by
  cases found with
  | none => exact h
  | some hw =>
    dsimp only [step]
    split
    · exact h
    case isFalse hopens =>
      obtain ⟨hcalloc, htype⟩ := not_or.mp hopens
      obtain rfl : calloc = true := Bool.eq_true_of_not_eq_false hcalloc
      have hrate : config.sample_rate ≠ 0 := hc (not_not.mp htype)
      exact safely_bind (doInitOutPcm_safely hrate) fun _ _ => h

theorem read_safely (F : FrameSize) {dev : Streams} (h : Paced dev) (i : Nat) (env : ReadEnv) (bytes : BitVec 32) :
    Safely Paced (step F dev (.read i env bytes)) := by
  dsimp only [step]
  split
  · exact h
  case h_2 strm hi =>
    refine safely_bind (inPcmRead_safely env bytes (h strm (List.mem_of_getElem? hi))) fun strm' hstrm' => ?_
    intro other hother
    rcases List.mem_or_eq_of_mem_set hother with hother | rfl
    · exact h other hother
    · exact hstrm'

/-- **One call.** -/
theorem step_safely (F : FrameSize) {dev : Streams} (h : Paced dev) {c : Call} (hc : c.Sound F) :
    Safely Paced (step F dev c) := by
  cases c with
  | openOutput config found calloc => exact openOutput_safely F h hc
  | write i env =>
    dsimp only [step]
    split
    · exact h
    · exact safely_bind (outPcmWrite_safely env _) fun _ _ => h
  | outStandby i => exact h
  | openInput config calloc =>
    cases calloc with
    | false => exact h
    | true =>
      intro strm hstrm
      rcases List.mem_append.mp hstrm with hstrm | hstrm
      · exact h strm hstrm
      · obtain rfl := List.mem_singleton.mp hstrm
        exact hc
  | setInputSource i hw =>
    refine paced_modify h i fun strm => ?_
    unfold changeInputSource
    split
    · rfl
    · rfl
  | read i env bytes => exact read_safely F h i env bytes
  | inStandby i =>
    refine paced_modify h i fun strm => ?_
    unfold inPcmStandby
    split
    · rfl
    · rfl

theorem foldlM_safely (F : FrameSize) (calls : List Call) {dev : Streams} (h : Paced dev)
    (hcalls : ∀ c ∈ calls, c.Sound F) : Safely Paced (calls.foldlM (step F) dev) := by
  induction calls generalizing dev with
  | nil => exact h
  | cons c calls ih =>
    rw [List.foldlM_cons]
    exact safely_bind (step_safely F h (hcalls c List.mem_cons_self)) fun dev' h' =>
      ih h' fun c' hc' => hcalls c' (List.mem_cons_of_mem c hc')

/-- A call that opens nothing is sound. -/
theorem sound_of_not_open (F : FrameSize) {c : Call} (h : c.isOpen = false) : c.Sound F := by
  cases c with
  | openOutput => cases h
  | openInput => cases h
  | write | outStandby | setInputSource | read | inStandby => exact trivial

/-! ## Runs that divide by 0 -/

def silentEnv (time : Int) : ReadEnv := ⟨true, .error 0, true, 0, 0, 0, time, time⟩

/-- A read before the stream has a source. -/
def silentRead (time : Int) : Call := .read 0 (silentEnv time) 4

theorem run_output (F : FrameSize) {config : AudioConfig} {hw : HwStream} (htype : hw.type = .out_pcm)
    (hrate : config.sample_rate = 0) : run F [.openOutput config (some hw) true] = .error .do_init_out_pcm := by
  have hinit : doInitOutPcm (initOut F hw config) = .error .do_init_out_pcm := by
    have hrate : (initOut F hw config).sample_rate = 0 := hrate
    simp only [doInitOutPcm, divideAt, divide, hrate, ↓reduceIte]
    rfl
  simp only [run, List.foldlM_cons, step, htype, hinit]
  rfl

theorem realtimeDelay_zero (systemTime : Int) (bytes : BitVec 32) (hlast : strm.last_read_ns ≠ 0)
    (h : strm.divisor = 0) : realtimeDelay systemTime strm bytes = .error .do_in_realtime_delay := by
  have hdivide : divide (1907 * bytes) (strm.frame_size * strm.sample_rate) = none := if_pos h
  simp only [realtimeDelay, doInRealtimeDelay, ne_eq, hlast, not_false_eq_true, ↓reduceIte, hdivide, Option.map_none]

/-- The input after its first read. -/
def onceRead (F : FrameSize) (config : AudioConfig) : InPcm := { initIn F config with last_read_ns := 1 }

/-- The second read of an input paces, and divides. -/
theorem run_input (F : FrameSize) {config : AudioConfig}
    (hrate : F config.format (orDefault config.channel_mask AUDIO_CHANNEL_IN_MONO) * config.sample_rate = 0) :
    run F [.openInput config true, silentRead 1, silentRead 2] = .error .do_in_realtime_delay := by
  have hzero : realtimeDelay 2 (onceRead F config) 4 = .error .do_in_realtime_delay :=
    realtimeDelay_zero 2 4 Int.one_ne_zero hrate
  have hsecond : inPcmRead (silentEnv 2) (onceRead F config) 4 = .error .do_in_realtime_delay :=
    calc inPcmRead (silentEnv 2) (onceRead F config) 4
        = (realtimeDelay 2 (onceRead F config) 4 >>= fun _ => .ok { onceRead F config with last_read_ns := 2 }) := rfl
      _ = .error .do_in_realtime_delay := by rw [hzero]; rfl
  have hread : step F ⟨[], [initIn F config]⟩ (silentRead 1) = .ok ⟨[], [onceRead F config]⟩ := rfl
  have hreread : step F ⟨[], [onceRead F config]⟩ (silentRead 2) = .error .do_in_realtime_delay :=
    calc step F ⟨[], [onceRead F config]⟩ (silentRead 2)
        = (inPcmRead (silentEnv 2) (onceRead F config) 4 >>= fun strm => .ok ⟨[], [strm]⟩) := rfl
      _ = .error .do_in_realtime_delay := by rw [hsecond]; rfl
  calc run F [.openInput config true, silentRead 1, silentRead 2]
      = (step F ⟨[], [initIn F config]⟩ (silentRead 1) >>= fun dev => step F dev (silentRead 2) >>= pure) := rfl
    _ = (step F ⟨[], [onceRead F config]⟩ (silentRead 2) >>= pure) := by rw [hread]; rfl
    _ = .error .do_in_realtime_delay := by rw [hreread]; rfl

/-- **Divisors.**  No run whose opens are among some requests divides by a rate that is 0
exactly when all of these requests are sound. -/
theorem divisors_nonzero_iff (F : FrameSize) (requests : Call → Prop) :
    (∀ calls : List Call, (∀ c ∈ calls, c.isOpen = true → requests c) →
      ∀ site, run F calls = .error site → site.byRate = false) ↔
    ∀ c, c.isOpen = true → requests c → c.Sound F := by
  constructor
  · intro hsafe c hopen hc
    cases c with
    | openOutput config found calloc =>
      cases found with
      | none => exact trivial
      | some hw =>
        cases calloc with
        | false => exact trivial
        | true =>
          intro htype hrate
          have := hsafe [.openOutput config (some hw) true] (by simpa [Call.isOpen] using hc) _
            (run_output F htype hrate)
          cases this
    | openInput config calloc =>
      cases calloc with
      | false => exact trivial
      | true =>
        intro hrate
        have := hsafe [.openInput config true, silentRead 1, silentRead 2]
          (by simpa [silentRead, Call.isOpen] using hc) _ (run_input F hrate)
        cases this
    | write | outStandby | setInputSource | read | inStandby => exact trivial
  · intro hsound calls hcalls site hsite
    have hall : ∀ c ∈ calls, c.Sound F := by
      intro c hc
      cases hopen : c.isOpen with
      | true => exact hsound c hopen (hcalls c hc hopen)
      | false => exact sound_of_not_open F hopen
    have hempty : Paced ⟨[], []⟩ := fun strm hstrm => (by cases hstrm)
    have hrun := foldlM_safely F calls hempty hall
    rw [run] at hsite
    rw [hsite] at hrun
    exact hrun

/-- Frames of 16 bits in each channel. -/
def frameSize16 : FrameSize := fun _ channels => BitVec.ofNat 32 (popcount channels * 2)

/-- An output that is opened with the default rate. -/
theorem default_rate_divides :
    ¬ ∀ (calls : List Call) (site : Site), run frameSize16 calls = .error site → site.byRate = false := by
  intro h
  have := h [.openOutput ⟨0, 0, AUDIO_FORMAT_PCM⟩ (some ⟨.out_pcm, 0, 0, 0⟩) true] .do_init_out_pcm rfl
  cases this

end MochaHal.Audio.Divisors
