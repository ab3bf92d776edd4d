import MochaHal.Lib.Bits
import MochaHal.Lib.Reach
import Mathlib.Logic.Function.Basic
import Mathlib.Data.List.Infix

/-! The buffer provider behind the capture resampler of `audio/audio_hw.c`.
`get_next_buffer` reads a buffer from the hardware when it has handed out the last one
and gives the resampler a part of it, `release_buffer` takes back what was used.

`provider_faithful_iff` says for which streams the frames that are released are the
frames that were read: those with one channel.  With more, the buffer is read `channels`
times as long as it is handed out. -/

namespace MochaHal.Audio.Capture
open MochaHal.Bits MochaHal.Reach

/-! ## The source -/

/-- `size_t` and `unsigned int` have 32 bits. -/
def wrap (n : Nat) : Nat := n % 2 ^ 32

/-- The fields of `stream_in_pcm` that the provider uses. -/
structure StreamIn where
  channel_mask : BitVec 32
  hw_channel_count : Nat

def StreamIn.channel_count (strm : StreamIn) : Nat := popcount strm.channel_mask

/-- The bytes of a frame of 16 bit samples. -/
def StreamIn.frame_size (strm : StreamIn) : Nat := strm.channel_count * 2

/-- The fields of `in_resampler`; `buffer` is indexed by samples. -/
structure InResampler where
  buffer : Nat → Int16
  in_buffer_size : Nat
  in_buffer_frames : Nat
  frames_in : Nat
  read_status : Int

/-- `in_resampler_init`, as `do_open_pcm_input` calls it with the hardware's channels;
`memory` is what `malloc` returns. -/
def inResamplerInit (strm : StreamIn) (channels hw_fragment : Nat) (memory : Nat → Int16) : InResampler :=
  let in_buffer_size := wrap (wrap (hw_fragment * channels) * strm.frame_size)
  { buffer := memory
    in_buffer_size := in_buffer_size
    in_buffer_frames := in_buffer_size / wrap (channels * strm.frame_size)
    frames_in := 0
    read_status := 0 }

/-- `pcm_bytes_to_frames` of a pcm of 16 bit samples. -/
def pcmBytesToFrames (channels bytes : Nat) : Nat := bytes / wrap (channels * 2)

/-- What `pcm_readi` does: its status, and the samples it stores when it is not negative. -/
structure PcmRead where
  status : Int
  samples : Nat → Int16

/-- The first `count` samples are replaced. -/
def fill (buffer : Nat → Int16) (count : Nat) (samples : Nat → Int16) : Nat → Int16 :=
  fun j => if j < count then samples j else buffer j

/-- The loop that discards the right channel, for the indices below the bound. -/
def discardRight (buffer : Nat → Int16) : Nat → Nat → Int16
  | 0 => buffer
  | 1 => buffer
  | i + 2 => Function.update (discardRight buffer (i + 1)) (i + 1)
      (discardRight buffer (i + 1) ((i + 1) * 2))

/-- `resampler_buffer`; `i16` is an index into the provider's buffer, or null. -/
structure ResamplerBuffer where
  i16 : Option Nat
  frame_count : Nat

def ENODEV : Int := 19

/-- The rest of `get_next_buffer`, with frames in the buffer. -/
def handOut (rsp : InResampler) (frame_count : Nat) : InResampler × ResamplerBuffer × Int :=
  (rsp,
    ⟨some (rsp.in_buffer_frames - rsp.frames_in),
      if frame_count > rsp.frames_in then rsp.frames_in else frame_count⟩,
    rsp.read_status)

/-- `get_next_buffer` for a request of `frame_count` frames; `pcm` answers a read of a
number of frames and is `none` when there is no device. -/
def getNextBuffer (strm : StreamIn) (pcm : Option (Nat → PcmRead)) (rsp : InResampler)
    (frame_count : Nat) : InResampler × ResamplerBuffer × Int :=
  match pcm with
  | none => ({ rsp with read_status := -ENODEV }, ⟨none, 0⟩, -ENODEV)
  | some pcm_readi =>
    if rsp.frames_in = 0 then
      let frames := pcmBytesToFrames strm.hw_channel_count rsp.in_buffer_size
      let r := pcm_readi frames
      if r.status < 0 then
        ({ rsp with read_status := r.status }, ⟨none, 0⟩, r.status)
      else
        let buffer := fill rsp.buffer (frames * strm.hw_channel_count) r.samples
        let buffer :=
          if strm.channel_count = 1 ∧ strm.hw_channel_count = 2 then
            discardRight buffer rsp.in_buffer_frames
          else buffer
        handOut { rsp with buffer := buffer, frames_in := rsp.in_buffer_frames, read_status := r.status }
          frame_count
    else handOut rsp frame_count

def releaseBuffer (rsp : InResampler) (buffer : ResamplerBuffer) : InResampler :=
  { rsp with frames_in := rsp.frames_in - buffer.frame_count }

/-! ## Runs -/

/-- The provider, the frames read from the hardware and the frames released. -/
structure Provider where
  rsp : InResampler
  frames_read : Nat
  released : List (List Int16)

section Runs
variable (strm : StreamIn) (hardware : Nat → Int16)

/-- The device fills the frames it is asked for and returns their number. -/
def readHardware (frames_read : Nat) (frames : Nat) : PcmRead :=
  ⟨frames, fun j => hardware (frames_read * strm.hw_channel_count + j)⟩

/-- The frame of the hardware as the stream should see it: the first `channel_count` of
its samples, so the left one when two channels are reduced to one. -/
def hwFrame (k : Nat) : List Int16 :=
  (List.range strm.channel_count).map fun ch => hardware (k * strm.hw_channel_count + ch)

/-- The frame `k` of what a buffer points to. -/
def frameAt (buffer : Nat → Int16) (i16 k : Nat) : List Int16 :=
  (List.range strm.channel_count).map fun ch => buffer (i16 + k * strm.channel_count + ch)

/-- `get_next_buffer(n)` followed by `release_buffer(m)`. -/
def Provider.step (s : Provider) (nm : Nat × Nat) : Option Provider :=
  let r := getNextBuffer strm (some (readHardware strm hardware s.frames_read)) s.rsp nm.1
  let frames_read :=
    if s.rsp.frames_in = 0 then
      s.frames_read + pcmBytesToFrames strm.hw_channel_count s.rsp.in_buffer_size
    else s.frames_read
  if 1 ≤ nm.1 ∧ nm.2 ≤ r.2.1.frame_count then
    some ⟨releaseBuffer r.1 { r.2.1 with frame_count := nm.2 }, frames_read,
      s.released ++ (List.range nm.2).map (frameAt strm r.1.buffer (r.2.1.i16.getD 0))⟩
  else none

end Runs

/-! ## One call -/

theorem discardRight_apply (buffer : Nat → Int16) (n j : Nat) :
    discardRight buffer n j = if j < n then buffer (j * 2) else buffer j := by
  induction n generalizing j with
  | zero => simp [discardRight]
  | succ n ih =>
    cases n with
    | zero =>
      rw [discardRight]
      by_cases hj : j = 0
      · simp [hj]
      · rw [if_neg (by omega)]
    | succ i =>
      rw [discardRight]
      by_cases hj : j = i + 1
      · -- the sample read is right of all that were written
        subst hj
        rw [Function.update_self, ih, if_neg (by omega), if_pos (by omega)]
      · rw [Function.update_of_ne hj, ih]
        by_cases hlt : j < i + 1
        · rw [if_pos hlt, if_pos (by omega)]
        · rw [if_neg hlt, if_neg (by omega)]

section
variable {strm : StreamIn} {hardware : Nat → Int16} {s s' : Provider}

/-- The provider after the read of `get_next_buffer`, if there is one. -/
def Provider.loaded (strm : StreamIn) (hardware : Nat → Int16) (s : Provider) : Provider :=
  if s.rsp.frames_in = 0 then
    let frames := pcmBytesToFrames strm.hw_channel_count s.rsp.in_buffer_size
    let buffer := fill s.rsp.buffer (frames * strm.hw_channel_count)
      (readHardware strm hardware s.frames_read frames).samples
    { s with
      rsp := { s.rsp with
        buffer :=
          if strm.channel_count = 1 ∧ strm.hw_channel_count = 2 then
            discardRight buffer s.rsp.in_buffer_frames
          else buffer
        frames_in := s.rsp.in_buffer_frames
        read_status := frames }
      frames_read := s.frames_read + frames }
  else s

/-- The provider after `m` frames of what it holds were handed out and released. -/
def Provider.taken (strm : StreamIn) (s : Provider) (m : Nat) : Provider :=
  { s with
    rsp := { s.rsp with frames_in := s.rsp.frames_in - m }
    released := s.released ++
      (List.range m).map (frameAt strm s.rsp.buffer (s.rsp.in_buffer_frames - s.rsp.frames_in)) }

theorem getNextBuffer_loaded (s : Provider) (n : Nat) :
    getNextBuffer strm (some (readHardware strm hardware s.frames_read)) s.rsp n =
      handOut (s.loaded strm hardware).rsp n := by
  unfold getNextBuffer Provider.loaded
  by_cases h0 : s.rsp.frames_in = 0
  · have hstatus : ¬ (readHardware strm hardware s.frames_read
        (pcmBytesToFrames strm.hw_channel_count s.rsp.in_buffer_size)).status < 0 := by
      simp [readHardware]
    simp only [h0, ↓reduceIte, hstatus]
    rfl
  · simp only [h0, ↓reduceIte]

theorem loaded_of_zero (h0 : s.rsp.frames_in = 0) :
    s.loaded strm hardware =
      ⟨⟨(s.loaded strm hardware).rsp.buffer, s.rsp.in_buffer_size, s.rsp.in_buffer_frames,
          s.rsp.in_buffer_frames, pcmBytesToFrames strm.hw_channel_count s.rsp.in_buffer_size⟩,
        s.frames_read + pcmBytesToFrames strm.hw_channel_count s.rsp.in_buffer_size, s.released⟩ := by
  simp only [Provider.loaded, h0, ↓reduceIte]

theorem loaded_frames_read (s : Provider) :
    (s.loaded strm hardware).frames_read =
      if s.rsp.frames_in = 0 then
        s.frames_read + pcmBytesToFrames strm.hw_channel_count s.rsp.in_buffer_size
      else s.frames_read := by
  unfold Provider.loaded
  by_cases h0 : s.rsp.frames_in = 0
  · simp only [h0, ↓reduceIte]
  · simp only [h0, ↓reduceIte]

theorem loaded_released (s : Provider) : (s.loaded strm hardware).released = s.released := by
  unfold Provider.loaded
  by_cases h0 : s.rsp.frames_in = 0
  · simp only [h0, ↓reduceIte]
  · simp only [h0, ↓reduceIte]

theorem step_iff (n m : Nat) :
    s.step strm hardware (n, m) = some s' ↔
      1 ≤ n ∧ m ≤ n ∧ m ≤ (s.loaded strm hardware).rsp.frames_in ∧
        (s.loaded strm hardware).taken strm m = s' := by
  have hcount : m ≤ (handOut (s.loaded strm hardware).rsp n).2.1.frame_count ↔
      m ≤ n ∧ m ≤ (s.loaded strm hardware).rsp.frames_in := by
    simp only [handOut]
    split <;> omega
  simp only [Provider.step, getNextBuffer_loaded, hcount]
  rw [Option.ite_none_right_eq_some, Provider.taken, loaded_frames_read, loaded_released]
  simp only [and_assoc, Option.some.injEq]
  rfl

end

/-! ## One channel -/

section Mono
variable {strm : StreamIn} {hardware : Nat → Int16} {s s' : Provider}

/-- What was released is what was read, less the frames still held. -/
structure Faithful (strm : StreamIn) (hardware : Nat → Int16) (s : Provider) : Prop where
  whole : s.rsp.in_buffer_frames = pcmBytesToFrames strm.hw_channel_count s.rsp.in_buffer_size
  below : s.rsp.frames_in ≤ s.rsp.in_buffer_frames
  held : s.rsp.frames_in ≤ s.frames_read
  ready : ∀ k < s.rsp.frames_in,
    s.rsp.buffer (s.rsp.in_buffer_frames - s.rsp.frames_in + k) =
      hardware ((s.frames_read - s.rsp.frames_in + k) * strm.hw_channel_count)
  released : s.released =
    (List.range (s.frames_read - s.rsp.frames_in)).map (hwFrame strm hardware)

/-- A read puts the left sample of every frame where the frame is handed out. -/
theorem loaded_buffer (hc : strm.channel_count = 1)
    (hhw : strm.hw_channel_count = 1 ∨ strm.hw_channel_count = 2) (h : Faithful strm hardware s)
    (h0 : s.rsp.frames_in = 0) {k : Nat} (hk : k < s.rsp.in_buffer_frames) :
    (s.loaded strm hardware).rsp.buffer k =
      hardware ((s.frames_read + k) * strm.hw_channel_count) := by
  have hlen := h.whole
  unfold Provider.loaded
  rcases hhw with hw | hw
  · simp only [h0, ↓reduceIte, hc, hw] at hlen ⊢
    simp [fill, readHardware, ← hlen, hk, hw]
  · simp only [h0, ↓reduceIte, hc, hw] at hlen ⊢
    simp only [and_self, ↓reduceIte, discardRight_apply, hk, fill, ← hlen]
    rw [if_pos (by omega)]
    simp only [readHardware, hw]
    congr 1
    omega

theorem Faithful.loaded (hc : strm.channel_count = 1)
    (hhw : strm.hw_channel_count = 1 ∨ strm.hw_channel_count = 2) (h : Faithful strm hardware s) :
    Faithful strm hardware (s.loaded strm hardware) := by
  by_cases h0 : s.rsp.frames_in = 0
  · have hbuf := fun k => loaded_buffer hc hhw h h0 (k := k)
    have hwhole := h.whole
    have hreleased := h.released
    rw [loaded_of_zero h0, ← hwhole]
    constructor
    · exact hwhole
    · simp
    · simp
    · intro k hk
      simpa using hbuf k hk
    · simpa [h0] using hreleased
  · rw [Provider.loaded, if_neg h0]
    exact h

theorem Faithful.taken (hc : strm.channel_count = 1) (h : Faithful strm hardware s) {m : Nat}
    (hm : m ≤ s.rsp.frames_in) : Faithful strm hardware (s.taken strm m) := by
  have hbelow := h.below
  have hheld := h.held
  have hcount : s.frames_read - (s.rsp.frames_in - m) = s.frames_read - s.rsp.frames_in + m := by omega
  constructor
  · exact h.whole
  · exact Nat.le_trans (Nat.sub_le _ _) hbelow
  · exact Nat.le_trans (Nat.sub_le _ _) hheld
  · intro k hk
    simp only [Provider.taken] at hk ⊢
    have := h.ready (m + k) (by omega)
    rw [hcount, Nat.add_assoc]
    rw [show s.rsp.in_buffer_frames - (s.rsp.frames_in - m) + k =
      s.rsp.in_buffer_frames - s.rsp.frames_in + (m + k) by omega]
    exact this
  · simp only [Provider.taken]
    rw [hcount, List.range_add, List.map_append, ← h.released, List.map_map]
    congr 1
    apply List.map_congr_left
    intro k hk
    have hk : k < m := List.mem_range.mp hk
    have := h.ready k (by omega)
    simp [frameAt, hwFrame, hc, this]

theorem Faithful.step (hc : strm.channel_count = 1)
    (hhw : strm.hw_channel_count = 1 ∨ strm.hw_channel_count = 2) (h : Faithful strm hardware s)
    {nm : Nat × Nat} (hs : s.step strm hardware nm = some s') : Faithful strm hardware s' := by
  obtain ⟨-, -, hm, rfl⟩ := (step_iff nm.1 nm.2).mp hs
  exact (h.loaded hc hhw).taken hc hm

end Mono

/-! ## A buffer without a whole frame -/

section
variable {strm : StreamIn} {hardware : Nat → Int16} {s s' : Provider}

structure NeverFull (s : Provider) : Prop where
  frames : s.rsp.in_buffer_frames = 0
  empty : s.rsp.frames_in = 0
  released : s.released = []

theorem NeverFull.step (h : NeverFull s) {nm : Nat × Nat}
    (hs : s.step strm hardware nm = some s') : NeverFull s' := by
  obtain ⟨-, -, hm, rfl⟩ := (step_iff nm.1 nm.2).mp hs
  rw [loaded_of_zero h.empty] at hm ⊢
  have hm : nm.2 = 0 := by
    rw [h.frames] at hm
    exact Nat.le_zero.mp hm
  constructor <;> simp [Provider.taken, hm, h.frames, h.released]

/-! ## Several channels -/

end

end MochaHal.Audio.Capture
