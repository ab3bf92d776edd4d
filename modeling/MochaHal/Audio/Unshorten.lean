import MochaHal.Lib.Reach

/-! PCM input through the compressed channel of `audio/audio_hw.c`, when the samples
arrive shortened.  `in_unshorten_read` fills the caller's buffer with the blocks that the
decoder gives out; the part of a block that no longer fits waits in the accumulator for
the next read.

The decoder and the device are outside: a round of the loop takes their answers, and the
bytes that go from `compress_read` to `unshorten_supply_input` are left out.
`unshortened_in_order` says what the reads deliver of the blocks. -/

namespace MochaHal.Audio.Unshorten
open MochaHal.Reach

variable {α : Type}

/-! ## The source -/

structure in_unshorten (α : Type) where
  accumulator_buf : List α
  accumulator_p : Nat
  accumulator_buf_size : Nat
  accumulator_avail : Nat

/-- What stands in the accumulator. -/
def in_unshorten.window (u : in_unshorten α) : List α :=
  (u.accumulator_buf.drop u.accumulator_p).take u.accumulator_avail

def memcpy (dst src : List α) (len : Nat) : List α :=
  src.take len ++ dst.drop len

/-- The bits that the loop tests of the result of `unshorten_process`. -/
structure Status where
  corrupt : Bool
  output_available : Bool
  input_required : Bool

/-- The answers that a round of the loop may ask for: the status, the block of
`unshorten_extract_output`, and the results of `compress_read` and of
`unshorten_supply_input`. -/
structure Answers (α : Type) where
  status : Status
  block : List α
  ret : Int
  supplied : Int

/-- Between two reads, with what the last one has returned; or in the loop of one, with
what is still asked for and what has been written; or in the first call on a null handle. -/
inductive Pc (α : Type)
  | idle (ret : Int)
  | reading (bytes count : Nat) (dst : List α)
  | null

/-- The input stream; `delivered` and `blocks` are what has been given to the callers and
taken from the decoder since the stream has left standby. -/
structure stream_in_pcm (α : Type) where
  standby : Bool
  compress : Bool
  unshorten : in_unshorten α
  pc : Pc α
  delivered : List α
  blocks : List (List α)

/-- A channel that was opened: its fragment size, and what `malloc` gives for the
accumulator and leaves in the pointer. -/
structure Opened (α : Type) where
  fragment_size : Nat
  accumulator_buf : List α
  accumulator_p : Nat
  size_eq : accumulator_buf.length = fragment_size * 2

def in_unshorten_init (o : Opened α) : in_unshorten α where
  accumulator_buf := o.accumulator_buf
  accumulator_p := o.accumulator_p
  accumulator_buf_size := o.fragment_size * 2
  accumulator_avail := 0

def do_open_compress_pcm_in (s : stream_in_pcm α) : Except Int (Opened α) → Int × stream_in_pcm α
  | .error ret => (ret, s)
  | .ok o =>
    (0, { s with compress := true, unshorten := in_unshorten_init o, delivered := [], blocks := [] })

/-- The result of a device that does not open is its `errno`, which is not negative: the
stream leaves standby nevertheless, with a null handle. -/
def start_compress_pcm_input_stream (s : stream_in_pcm α) (opened : Except Int (Opened α)) :
    Int × stream_in_pcm α :=
  if s.standby then
    let opening := do_open_compress_pcm_in s opened
    if opening.1 < 0 then opening else (0, { opening.2 with standby := false })
  else (0, s)

/-- The part of `in_unshorten_read` before its loop. -/
def stream_in_pcm.drain (s : stream_in_pcm α) (bytes : Nat) : stream_in_pcm α :=
  let u := s.unshorten
  if u.accumulator_avail ≠ 0 then
    let len := min u.accumulator_avail bytes
    let copied := (u.accumulator_buf.drop u.accumulator_p).take len
    { s with
      unshorten := { u with
        accumulator_avail := u.accumulator_avail - len
        accumulator_p := u.accumulator_p + len }
      pc := .reading bytes (bytes - len) copied
      delivered := s.delivered ++ copied }
  else { s with pc := .reading bytes bytes [] }

/-- A block that fits is copied; of another one the rest goes to the accumulator, as far
as there is room. -/
def stream_in_pcm.extract (s : stream_in_pcm α) (bytes count : Nat) (dst block : List α) :
    stream_in_pcm α :=
  let u := s.unshorten
  let len := block.length
  if len ≤ count then
    { s with
      pc := .reading bytes (count - len) (dst ++ block)
      delivered := s.delivered ++ block, blocks := s.blocks ++ [block] }
  else
    let rest := min (len - count) u.accumulator_buf_size
    { s with
      unshorten := { u with
        accumulator_buf := memcpy u.accumulator_buf (block.drop count) rest
        accumulator_p := 0
        accumulator_avail := rest }
      pc := .reading bytes 0 (dst ++ block.take count)
      delivered := s.delivered ++ block.take count, blocks := s.blocks ++ [block] }

/-- A round of the loop.  All that ends it early returns what has been written so far. -/
def stream_in_pcm.round (s : stream_in_pcm α) (bytes count : Nat) (dst : List α) (a : Answers α) :
    stream_in_pcm α :=
  let out := { s with pc := .idle (bytes - count) }
  if a.status.corrupt then out
  else if a.status.output_available then s.extract bytes count dst a.block
  else if a.status.input_required then
    if a.ret ≤ 0 then out else if a.supplied ≠ 0 then out else s
  else s

inductive Act (α : Type)
  | do_in_compress_pcm_read (bytes : Nat) (opened : Except Int (Opened α))
  | round (a : Answers α)
  | leave
  | do_in_compress_pcm_standby

/-- The stream's lock covers a read, so standby waits for its end.  What the calls on a null
handle do is not in the repository. -/
def stream_in_pcm.next (s : stream_in_pcm α) : Act α → Option (stream_in_pcm α)
  | .do_in_compress_pcm_read bytes opened =>
    match s.pc with
    | .idle _ =>
      let started := start_compress_pcm_input_stream s opened
      if started.1 < 0 then some { started.2 with pc := .idle started.1 }
      else if started.2.compress then some (started.2.drain bytes)
      else some { started.2 with pc := .null }
    | _ => none
  | .round a =>
    match s.pc with
    | .reading bytes count dst => if 0 < count then some (s.round bytes count dst a) else none
    | _ => none
  | .leave =>
    match s.pc with
    | .reading bytes 0 _ => some { s with pc := .idle bytes }
    | _ => none
  | .do_in_compress_pcm_standby =>
    match s.pc with
    | .idle _ => some { s with standby := true, compress := if s.standby then s.compress else false }
    | _ => none

/-- A stream as `calloc` leaves it, in standby. -/
def created : stream_in_pcm α where
  standby := true
  compress := false
  unshorten := ⟨[], 0, 0, 0⟩
  pc := .idle 0
  delivered := []
  blocks := []

abbrev Run (s : stream_in_pcm α) : Prop :=
  Reachable (· = created) (fun s a s' => s.next a = some s') (fun _ (_ : Act α) => True) s

/-! ## The invariant -/

/-- The part of the blocks for which the accumulator has no room in any case. -/
def overflow (size : Nat) (blocks : List (List α)) : Nat :=
  (blocks.map fun block => block.length - size).sum

structure Inv (s : stream_in_pcm α) : Prop where
  size : s.unshorten.accumulator_buf.length = s.unshorten.accumulator_buf_size
  fits : s.unshorten.accumulator_avail = 0 ∨
    s.unshorten.accumulator_p + s.unshorten.accumulator_avail ≤ s.unshorten.accumulator_buf_size
  order : (s.delivered ++ s.unshorten.window).Sublist s.blocks.flatten
  bound : s.blocks.flatten.length ≤ s.delivered.length + s.unshorten.accumulator_avail +
    overflow s.unshorten.accumulator_buf_size s.blocks
  reading : ∀ bytes count dst, s.pc = .reading bytes count dst → dst.length + count = bytes ∧
    dst <:+ s.delivered ∧ (0 < count → s.unshorten.accumulator_avail = 0)

variable {s : stream_in_pcm α}

theorem Inv.window_length (h : Inv s) : s.unshorten.window.length = s.unshorten.accumulator_avail := by
  have hsize := h.size
  have hfits := h.fits
  rw [in_unshorten.window, List.length_take, List.length_drop]
  omega

theorem Inv.window_nil (h : Inv s) (havail : s.unshorten.accumulator_avail = 0) : s.unshorten.window = [] :=
  List.eq_nil_of_length_eq_zero (h.window_length.trans havail)

theorem inv_created : Inv (created : stream_in_pcm α) where
  size := rfl
  fits := .inl rfl
  order := List.Sublist.refl _
  bound := Nat.zero_le _
  reading := fun _ _ _ hpc => by cases hpc

theorem Inv.goto (h : Inv s) {pc : Pc α} (hpc : ∀ bytes count dst, pc ≠ .reading bytes count dst)
    (standby compress : Bool) :
    Inv { s with standby := standby, compress := compress, pc := pc } :=
  { h with reading := fun _ _ _ hreading => absurd hreading (hpc _ _ _) }

theorem Inv.start (h : Inv s) {ret : Int} (hidle : s.pc = .idle ret)
    (opened : Except Int (Opened α)) : Inv (start_compress_pcm_input_stream s opened).2 := by
  unfold start_compress_pcm_input_stream do_open_compress_pcm_in
  split
  case isFalse => exact h
  case isTrue =>
    cases opened with
    | error err =>
      simp only
      split
      case isTrue => exact h
      case isFalse => exact { h with }
    | ok o =>
      exact {
        size := o.size_eq
        fits := .inl rfl
        order := by simp [in_unshorten_init, in_unshorten.window]
        bound := Nat.zero_le _
        reading := fun bytes count dst hpc => by simp [hidle] at hpc }

/-- What the caller takes of the accumulator goes from the window to `delivered`. -/
theorem Inv.drain (h : Inv s) (bytes : Nat) : Inv (s.drain bytes) := by
  have hsize := h.size
  have hfits := h.fits
  unfold stream_in_pcm.drain
  simp only
  split
  case isFalse havail =>
    have hzero : s.unshorten.accumulator_avail = 0 := by simpa using havail
    refine { h with reading := ?_ }
    rintro _ _ _ ⟨⟩
    exact ⟨Nat.zero_add _, List.nil_suffix, fun _ => hzero⟩
  case isTrue havail =>
    generalize hlen : min s.unshorten.accumulator_avail bytes = len
    have hcopied : ((s.unshorten.accumulator_buf.drop s.unshorten.accumulator_p).take len).length = len := by
      rw [List.length_take, List.length_drop]
      omega
    have hwindow : s.unshorten.window =
        (s.unshorten.accumulator_buf.drop s.unshorten.accumulator_p).take len ++
        (s.unshorten.accumulator_buf.drop (s.unshorten.accumulator_p + len)).take
          (s.unshorten.accumulator_avail - len) := by
      rw [in_unshorten.window, ← List.drop_drop, ← List.take_add]
      congr 1
      omega
    refine ⟨hsize, ?_, ?_, ?_, ?_⟩
    · right
      simp only
      omega
    · have horder := h.order
      rw [hwindow, ← List.append_assoc] at horder
      exact horder
    · have hbound := h.bound
      rw [List.length_append, hcopied]
      simp only
      omega
    · rintro _ _ _ ⟨⟩
      refine ⟨by rw [hcopied]; omega, List.suffix_append _ _, fun hcount => ?_⟩
      simp only
      omega

/-- A block goes to the caller, and what does not fit to the window. -/
theorem Inv.extract (h : Inv s) {bytes count : Nat} {dst : List α}
    (hpc : s.pc = .reading bytes count dst) (hcount : 0 < count) (block : List α) :
    Inv (s.extract bytes count dst block) := by
  obtain ⟨hdst, hsuffix, hempty⟩ := h.reading _ _ _ hpc
  have hnone := h.window_nil (hempty hcount)
  have hsize := h.size
  have hbound := h.bound
  have horder := h.order
  rw [hnone, List.append_nil] at horder
  have hsum : overflow s.unshorten.accumulator_buf_size (s.blocks ++ [block]) =
      overflow s.unshorten.accumulator_buf_size s.blocks +
        (block.length - s.unshorten.accumulator_buf_size) := by
    simp [overflow]
  have hflatten : (s.blocks ++ [block]).flatten = s.blocks.flatten ++ block := by simp
  unfold stream_in_pcm.extract
  simp only
  split
  case isTrue hfits =>
    refine ⟨hsize, h.fits, ?_, ?_, ?_⟩
    · rw [show (_ : in_unshorten α).window = [] from hnone, List.append_nil, hflatten]
      exact horder.append_right block
    · simp only
      rw [hflatten, hsum, List.length_append, List.length_append]
      omega
    · rintro _ _ _ ⟨⟩
      refine ⟨by rw [List.length_append]; omega, ?_, fun _ => hempty hcount⟩
      obtain ⟨before, hbefore⟩ := hsuffix
      exact ⟨before, by rw [← List.append_assoc, hbefore]⟩
  case isFalse hmore =>
    generalize hrest : min (block.length - count) s.unshorten.accumulator_buf_size = rest
    have hcopied : ((block.drop count).take rest).length = rest := by
      rw [List.length_take, List.length_drop]
      omega
    refine ⟨?_, ?_, ?_, ?_, ?_⟩
    · simp only [memcpy, List.length_append, List.length_drop, hcopied]
      omega
    · right
      simp only
      omega
    · have hwindow : ((memcpy s.unshorten.accumulator_buf (block.drop count) rest).drop 0).take rest =
          (block.drop count).take rest := by
        rw [List.drop_zero, memcpy, List.take_left' hcopied]
      rw [in_unshorten.window, hwindow, hflatten, List.append_assoc, ← List.take_add]
      exact horder.append (List.take_sublist _ _)
    · simp only
      rw [hflatten, hsum, List.length_append, List.length_append, List.length_take]
      omega
    · rintro _ _ _ ⟨⟩
      refine ⟨?_, ?_, fun hzero => absurd hzero (by omega)⟩
      · rw [List.length_append, List.length_take]
        omega
      · obtain ⟨before, hbefore⟩ := hsuffix
        exact ⟨before, by rw [← List.append_assoc, hbefore]⟩

theorem Inv.round (h : Inv s) {bytes count : Nat} {dst : List α}
    (hpc : s.pc = .reading bytes count dst) (hcount : 0 < count) (a : Answers α) :
    Inv (s.round bytes count dst a) := by
  unfold stream_in_pcm.round
  simp only
  split
  case isTrue => exact h.goto (by simp) _ _
  case isFalse =>
    split
    case isTrue => exact h.extract hpc hcount a.block
    case isFalse =>
      split
      case isFalse => exact h
      case isTrue =>
        split
        case isTrue => exact h.goto (by simp) _ _
        case isFalse =>
          split
          case isTrue => exact h.goto (by simp) _ _
          case isFalse => exact h

theorem Inv.next (h : Inv s) {a : Act α} {s' : stream_in_pcm α} (hs : s.next a = some s') : Inv s' := by
  cases a with
  | do_in_compress_pcm_read bytes opened =>
    simp only [stream_in_pcm.next] at hs
    split at hs
    case h_2 => cases hs
    case h_1 ret hidle =>
      have hstarted := h.start hidle opened
      split at hs
      case isTrue =>
        cases hs
        exact hstarted.goto (by simp) _ _
      case isFalse =>
        split at hs <;> cases hs
        case isTrue => exact hstarted.drain bytes
        case isFalse => exact hstarted.goto (by simp) _ _
  | round a =>
    simp only [stream_in_pcm.next] at hs
    split at hs
    case h_1 bytes count dst hpc =>
      obtain ⟨hcount, hs⟩ := Option.ite_none_right_eq_some.mp hs
      cases hs
      exact h.round hpc hcount a
    case h_2 => cases hs
  | leave =>
    simp only [stream_in_pcm.next] at hs
    split at hs <;> cases hs
    exact h.goto (by simp) _ _
  | do_in_compress_pcm_standby =>
    simp only [stream_in_pcm.next] at hs
    split at hs <;> cases hs
    exact { h with }

/-! ## The stream of samples -/

theorem inv_run (h : Run s) : Inv s :=
  h.invariant (by rintro s rfl; exact inv_created) fun _ _ _ hinv _ hs => hinv.next hs

/-- Blocks that fit the accumulator are delivered as they are. -/
theorem Inv.complete (h : Inv s)
    (hblocks : ∀ block ∈ s.blocks, block.length ≤ s.unshorten.accumulator_buf_size) :
    s.delivered ++ s.unshorten.window = s.blocks.flatten := by
  have hbound := h.bound
  have hnone : overflow s.unshorten.accumulator_buf_size s.blocks = 0 := by
    refine List.sum_eq_zero_iff_forall_eq_nat.mpr fun n hn => ?_
    obtain ⟨block, hblock, rfl⟩ := List.mem_map.mp hn
    exact Nat.sub_eq_zero_of_le (hblocks block hblock)
  refine h.order.eq_of_length_le ?_
  rw [List.length_append, h.window_length]
  omega

/-- **In order.**  Since the stream has left standby, the callers have got, with what still
waits in the accumulator, the blocks of the decoder in their order, each byte at most once;
missing are at most the bytes for which the accumulator has no room.  A read writes nowhere
but to the bytes it was given. -/
theorem unshortened_in_order (h : Run s) :
    (s.delivered ++ s.unshorten.window).Sublist s.blocks.flatten ∧
    s.blocks.flatten.length ≤ (s.delivered ++ s.unshorten.window).length +
      overflow s.unshorten.accumulator_buf_size s.blocks ∧
    ((∀ block ∈ s.blocks, block.length ≤ s.unshorten.accumulator_buf_size) →
      s.delivered ++ s.unshorten.window = s.blocks.flatten) ∧
    ∀ bytes count dst, s.pc = .reading bytes count dst → dst.length + count = bytes ∧
      dst <:+ s.delivered := by
  have hinv := inv_run h
  refine ⟨hinv.order, ?_, hinv.complete, fun bytes count dst hpc => ?_⟩
  · rw [List.length_append, hinv.window_length]
    exact hinv.bound
  · obtain ⟨hdst, hsuffix, -⟩ := hinv.reading _ _ _ hpc
    exact ⟨hdst, hsuffix⟩

/-- A channel of fragments of two bytes. -/
def smallChannel : Opened Nat where
  fragment_size := 2
  accumulator_buf := [0, 0, 0, 0]
  accumulator_p := 7
  size_eq := rfl

/-- Three bytes are asked for and then two; the second block is cut by the first read. -/
theorem unshortened_in_order_two : ∃ s : stream_in_pcm Nat,
    s.delivered = [1, 2, 3, 4, 5] ∧ s.unshorten.window = [6] ∧
    s.delivered ++ s.unshorten.window = s.blocks.flatten := by
  have hrun : Run _ := reachable_foldlM
    [.do_in_compress_pcm_read 3 (.ok smallChannel),
     .round ⟨⟨false, false, true⟩, [], 8, 0⟩, .round ⟨⟨false, true, false⟩, [1, 2], 0, 0⟩,
     .round ⟨⟨false, true, false⟩, [3, 4, 5, 6], 0, 0⟩, .leave,
     .do_in_compress_pcm_read 2 (.error (-22)), .leave] (.start rfl) rfl
  exact ⟨_, rfl, rfl, (unshortened_in_order hrun).2.2.1 (by decide)⟩

end MochaHal.Audio.Unshorten
