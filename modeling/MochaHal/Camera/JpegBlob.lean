import MochaHal.Camera.Device

/-! The JPEG encoder behind BLOB streams: `encodeRGBA` with its fixed-size destination
manager, and the trailer the HAL puts at the end of the same buffer.  libjpeg is a
parameter.  `blob_allOrNothing_iff` says for which images and buffers a capture is
all-or-nothing: `jpeg_finish_compress` is reached before the overflow flag is looked at, and
the encoder is given the bytes of the trailer too, so the compressed image has to leave
them free. -/

namespace MochaHal.Camera

open MochaHal.Demosaic
open MochaHal.Prog (calls)

def ENOSPC : Int := 28

/-! ## libjpeg -/

/-- The fields of `cinfo` that decide the compressed bytes. -/
structure JpegParams where
  image_width : BitVec 32
  image_height : BitVec 32
  quality : Nat
  deriving DecidableEq, Repr

abbrev Scanline := List Byte

/-- What a call into libjpeg does with `free` bytes of room: the bytes it stores, whether it
called `empty_output_buffer` (and was told `FALSE`), whether it took the scanline it was
given, and whether it ended the process through `error_exit`. -/
structure JpegEffect (free : Nat) where
  written : Nat
  within : written ≤ free
  emptied : Bool
  advanced : Bool
  exited : Bool

/-- The calls, with the scanlines taken before, and how many bytes each has to put out. -/
structure Libjpeg where
  accepts : JpegParams → Bool
  headerLen : JpegParams → Nat
  lineLen : JpegParams → List Scanline → Scanline → Nat
  tailLen : JpegParams → List Scanline → Nat
  startCompress : JpegParams → (free : Nat) → JpegEffect free
  writeScanlines : JpegParams → List Scanline → Scanline → (free : Nat) → JpegEffect free
  finishCompress : JpegParams → List Scanline → (free : Nat) → JpegEffect free

/-- A call with `len` bytes to put out calls `empty_output_buffer` when it fills the buffer,
and has put out all of them when it does not. -/
structure JpegEffect.Emits {free : Nat} (e : JpegEffect free) (len : Nat) : Prop where
  emptied_iff : e.emptied = true ↔ 0 < len ∧ free ≤ len
  written_eq : e.emptied = false → e.written = len

/-- What libjpeg's manual says of the calls. -/
structure Libjpeg.Documented (lib : Libjpeg) : Prop where
  header_pos : ∀ p, 0 < lib.headerLen p
  start_emits : ∀ p free, lib.accepts p = true →
    (lib.startCompress p free).Emits (lib.headerLen p)
  /-- Headers cannot be suspended, and an image of unsupported size is an error. -/
  start_exits : ∀ p free, (lib.startCompress p free).exited = true ↔
    lib.accepts p = false ∨ (lib.startCompress p free).emptied = true
  write_emits : ∀ p done row free,
    (lib.writeScanlines p done row free).Emits (lib.lineLen p done row)
  /-- A suspended call does not advance `next_scanline`; any other one takes its line. -/
  write_advances : ∀ p done row free, (lib.writeScanlines p done row free).advanced =
    !(lib.writeScanlines p done row free).emptied
  /-- Only the frame header in front of the first line cannot be suspended. -/
  write_exits : ∀ p done row free, (lib.writeScanlines p done row free).exited = true →
    (lib.writeScanlines p done row free).emptied = true
  finish_emits : ∀ p done free, done.length = p.image_height.toNat →
    (lib.finishCompress p done free).Emits (lib.tailLen p done)
  /-- Missing scanlines and a suspension both end the process. -/
  finish_exits : ∀ p done free, (lib.finishCompress p done free).exited = true ↔
    done.length < p.image_height.toNat ∨ (lib.finishCompress p done free).emptied = true

/-- A call that stores what it can of its `len` bytes. -/
def JpegEffect.emit (len free : Nat) (exits : Bool → Bool) : JpegEffect free where
  written := min len free
  within := Nat.min_le_right _ _
  emptied := decide (0 < len ∧ free ≤ len)
  advanced := !decide (0 < len ∧ free ≤ len)
  exited := exits (decide (0 < len ∧ free ≤ len))

theorem JpegEffect.emit_emits (len free : Nat) (exits : Bool → Bool) :
    (JpegEffect.emit len free exits).Emits len where
  emptied_iff := decide_eq_true_iff
  written_eq h := by
    have := of_decide_eq_false h
    show min len free = len
    omega

/-- The libjpeg that puts out the given lengths; only the headers in front of the first line
cannot be suspended. -/
def Libjpeg.ofLengths (accepts : JpegParams → Bool) (headerLen : JpegParams → Nat)
    (lineLen : JpegParams → List Scanline → Scanline → Nat)
    (tailLen : JpegParams → List Scanline → Nat) : Libjpeg where
  accepts := accepts
  headerLen := headerLen
  lineLen := lineLen
  tailLen := tailLen
  startCompress p free := .emit (headerLen p) free fun emptied => !accepts p || emptied
  writeScanlines p done row free := .emit (lineLen p done row) free fun emptied =>
    emptied && done.isEmpty
  finishCompress p done free := .emit (tailLen p done) free fun emptied =>
    decide (done.length < p.image_height.toNat) || emptied

/-- Whatever the lengths, some libjpeg behaves so. -/
theorem Libjpeg.ofLengths_documented {accepts : JpegParams → Bool} {headerLen : JpegParams → Nat}
    {lineLen : JpegParams → List Scanline → Scanline → Nat}
    {tailLen : JpegParams → List Scanline → Nat} (hpos : ∀ p, 0 < headerLen p) :
    (Libjpeg.ofLengths accepts headerLen lineLen tailLen).Documented where
  header_pos := hpos
  start_emits p free _ := JpegEffect.emit_emits (headerLen p) free _
  start_exits p free := by simp [ofLengths, JpegEffect.emit]
  write_emits p done row free :=
    JpegEffect.emit_emits (lineLen p done row) free fun emptied => emptied && done.isEmpty
  write_advances p done row free := rfl
  write_exits p done row free h := (Bool.and_eq_true_iff.mp h).1
  finish_emits p done free _ := JpegEffect.emit_emits (tailLen p done) free _
  finish_exits p done free := by simp [ofLengths, JpegEffect.emit]

/-! ## The destination manager -/

/-- `next_output_byte` is an offset into the buffer. -/
structure JpegDest where
  bufferSize : Nat
  next_output_byte : Nat
  free_in_buffer : Nat
  overflow : Bool
  room : next_output_byte + free_in_buffer = bufferSize

namespace JpegDest

def initDestination (bufferSize : Nat) : JpegDest := ⟨bufferSize, 0, bufferSize, false, by omega⟩

def emptyOutputBuffer (dest : JpegDest) : JpegDest × Bool := ({ dest with overflow := true }, false)

/-- libjpeg stores `written` bytes. -/
def advance (dest : JpegDest) (e : JpegEffect dest.free_in_buffer) : JpegDest where
  bufferSize := dest.bufferSize
  next_output_byte := dest.next_output_byte + e.written
  free_in_buffer := dest.free_in_buffer - e.written
  overflow := dest.overflow
  room := by
    have := e.within
    have := dest.room
    omega

end JpegDest

/-- Why `encodeRGBA` does not return; `fuel` is the model's loop bound. -/
inductive Halt
  | exit
  | fuel
  deriving DecidableEq, Repr

/-- The destination after a call, if the process is still there. -/
def JpegDest.after (dest : JpegDest) (e : JpegEffect dest.free_in_buffer) : Except Halt JpegDest :=
  if e.exited then .error .exit
  else if e.emptied then .ok (dest.advance e).emptyOutputBuffer.1
  else .ok (dest.advance e)

/-! ## The encoder -/

structure Encoded where
  ret : Int
  jpegSize : Nat
  next_scanline : Nat
  deriving DecidableEq, Repr

namespace JpegEncoder

/-- The three colour bytes of each pixel of a line. -/
def rgbRow (rgba : Mem) (width : BitVec 32) (next_scanline : Nat) : Scanline :=
  let row_stride := width * 4
  let src := (BitVec.ofNat 32 next_scanline * row_stride).toNat
  (List.range width.toInt.toNat).flatMap fun x =>
    [rgba (src + x * 4), rgba (src + x * 4 + 1), rgba (src + x * 4 + 2)]

/-- The loop over the scanlines; `next_scanline` is the number of lines taken. -/
def writeRows (lib : Libjpeg) (p : JpegParams) (rgba : Mem) :
    Nat → List Scanline → JpegDest → Except Halt (List Scanline × JpegDest)
  | 0, _, _ => .error .fuel
  | fuel + 1, done, dest =>
    if done.length < p.image_height.toNat then do
      let row := rgbRow rgba p.image_width done.length
      let e := lib.writeScanlines p done row dest.free_in_buffer
      let dest ← dest.after e
      let done := if e.advanced then done ++ [row] else done
      if dest.overflow then return (done, dest)
      else writeRows lib p rgba fuel done dest
    else return (done, dest)

/-- The end of `encodeRGBA`.  The overflow flag is looked at only behind
`jpeg_finish_compress`. -/
def finishImage (lib : Libjpeg) (p : JpegParams) (outputSize : Nat)
    (r : List Scanline × JpegDest) : Except Halt Encoded := do
  let dest ← r.2.after (lib.finishCompress p r.1 r.2.free_in_buffer)
  let jpegSize := outputSize - dest.free_in_buffer
  if dest.overflow then return ⟨-ENOSPC, jpegSize, r.1.length⟩
  else return ⟨0, jpegSize, r.1.length⟩

/-- `malloc` says whether the buffer for one line is there; `jpegSize` is the caller's 0
where the source does not set it. -/
def encodeRGBA (lib : Libjpeg) (malloc : BitVec 32 → Bool) (rgba : Mem) (width height : BitVec 32)
    (quality outputSize : Nat) : Except Halt Encoded := do
  let p : JpegParams := ⟨width, height, quality⟩
  let dest ← (JpegDest.initDestination outputSize).after (lib.startCompress p outputSize)
  if malloc (width * 3) then
    let r ← writeRows lib p rgba (height.toNat + 1) [] dest
    finishImage lib p outputSize r
  else return ⟨-ENOMEM, 0, 0⟩

/-! ## What the loop reaches -/

variable {lib : Libjpeg} {p : JpegParams} {rgba : Mem}

/-- The first `n` scanlines. -/
def lines (rgba : Mem) (width : BitVec 32) (n : Nat) : List Scanline :=
  (List.range n).map (rgbRow rgba width)

/-- The bytes in front of scanline `n`. -/
def lengthBefore (lib : Libjpeg) (p : JpegParams) (rgba : Mem) : Nat → Nat
  | 0 => lib.headerLen p
  | n + 1 => lengthBefore lib p rgba n +
      lib.lineLen p (lines rgba p.image_width n) (rgbRow rgba p.image_width n)

/-- The length of the whole compressed image. -/
def compressedLength (lib : Libjpeg) (p : JpegParams) (rgba : Mem) : Nat :=
  lengthBefore lib p rgba p.image_height.toNat +
    lib.tailLen p (lines rgba p.image_width p.image_height.toNat)

@[simp] theorem length_lines (width : BitVec 32) (n : Nat) : (lines rgba width n).length = n := by
  simp [lines]

theorem lines_succ (width : BitVec 32) (n : Nat) :
    lines rgba width (n + 1) = lines rgba width n ++ [rgbRow rgba width n] := by
  simp [lines, List.range_succ]

theorem lengthBefore_mono (lib : Libjpeg) (p : JpegParams) (rgba : Mem) {m n : Nat} (h : m ≤ n) :
    lengthBefore lib p rgba m ≤ lengthBefore lib p rgba n := by
  induction h with
  | refl => exact le_rfl
  | step _ ih => exact ih.trans (Nat.le_add_right _ _)

theorem compressedLength_pos (hlib : lib.Documented) (p : JpegParams) (rgba : Mem) :
    0 < compressedLength lib p rgba :=
  calc 0 < lib.headerLen p := hlib.header_pos p
    _ ≤ lengthBefore lib p rgba p.image_height.toNat := lengthBefore_mono lib p rgba (Nat.zero_le _)
    _ ≤ compressedLength lib p rgba := Nat.le_add_right _ _

/-- A destination that holds `len` bytes and is not full. -/
structure Holds (dest : JpegDest) (size len : Nat) : Prop where
  bufferSize : dest.bufferSize = size
  next : dest.next_output_byte = len
  overflow : dest.overflow = false
  notFull : len < size

theorem Holds.free {dest : JpegDest} {size len : Nat} (h : Holds dest size len) :
    len + dest.free_in_buffer = size := by
  rw [← h.bufferSize, ← h.next, dest.room]

/-- A call that puts out `n` more bytes: it is suspended exactly when they fill the buffer. -/
theorem Holds.emptied_iff {dest : JpegDest} {size len n : Nat} (h : Holds dest size len)
    {e : JpegEffect dest.free_in_buffer} (he : e.Emits n) : e.emptied = true ↔ size ≤ len + n := by
  have := h.free
  have := h.notFull
  rw [he.emptied_iff]
  omega

theorem Holds.not_emptied {dest : JpegDest} {size len n : Nat} (h : Holds dest size len)
    {e : JpegEffect dest.free_in_buffer} (he : e.Emits n) (hfits : len + n < size) :
    e.emptied = false := by
  rw [Bool.eq_false_iff, Ne, h.emptied_iff he]
  exact Nat.not_le.mpr hfits

theorem Holds.after_fits {dest : JpegDest} {size len n : Nat} (h : Holds dest size len)
    {e : JpegEffect dest.free_in_buffer} (he : e.Emits n) (hexit : e.exited = true → e.emptied = true)
    (hfits : len + n < size) : dest.after e = .ok (dest.advance e) ∧
      Holds (dest.advance e) size (len + n) := by
  have hemptied := h.not_emptied he hfits
  have hexited : e.exited = false := by
    rw [Bool.eq_false_iff]
    exact fun hx => absurd (hexit hx) (by simp [hemptied])
  refine ⟨by simp [JpegDest.after, hexited, hemptied], h.bufferSize, ?_, h.overflow, hfits⟩
  show dest.next_output_byte + e.written = len + n
  rw [h.next, he.written_eq hemptied]

/-- A scanline that fits: the loop goes on with the next one. -/
theorem writeRows_step (hlib : lib.Documented) (fuel : Nat) {size n : Nat} {dest : JpegDest}
    (hn : n < p.image_height.toNat) (hd : Holds dest size (lengthBefore lib p rgba n))
    (hfits : lengthBefore lib p rgba (n + 1) < size) :
    ∃ dest', writeRows lib p rgba (fuel + 1) (lines rgba p.image_width n) dest =
        writeRows lib p rgba fuel (lines rgba p.image_width (n + 1)) dest' ∧
      Holds dest' size (lengthBefore lib p rgba (n + 1)) := by
  have hemits := hlib.write_emits p (lines rgba p.image_width n) (rgbRow rgba p.image_width n)
    dest.free_in_buffer
  obtain ⟨hafter, hheld⟩ := hd.after_fits hemits (hlib.write_exits _ _ _ _) hfits
  refine ⟨_, ?_, hheld⟩
  have hemptied := hd.not_emptied hemits hfits
  simp only [writeRows, length_lines, hn, ↓reduceIte, hafter, hlib.write_advances, hemptied,
    Bool.not_false, ← lines_succ]
  show (if _ then _ else _) = _
  rw [hheld.overflow]
  rfl

/-- A scanline that fills the buffer: the loop ends in front of it, or the process does. -/
theorem writeRows_stop (hlib : lib.Documented) (fuel : Nat) {size n : Nat} {dest : JpegDest}
    (hn : n < p.image_height.toNat) (hd : Holds dest size (lengthBefore lib p rgba n))
    (hfull : size ≤ lengthBefore lib p rgba (n + 1)) :
    writeRows lib p rgba (fuel + 1) (lines rgba p.image_width n) dest = .error .exit ∨
      ∃ dest', writeRows lib p rgba (fuel + 1) (lines rgba p.image_width n) dest =
        .ok (lines rgba p.image_width n, dest') := by
  have hemits := hlib.write_emits p (lines rgba p.image_width n) (rgbRow rgba p.image_width n)
    dest.free_in_buffer
  have hemptied := (hd.emptied_iff hemits).mpr hfull
  simp only [writeRows, length_lines, hn, ↓reduceIte, hlib.write_advances, hemptied,
    Bool.not_true, Bool.false_eq_true, JpegDest.after]
  split
  · exact .inl rfl
  · exact .inr ⟨_, rfl⟩

/-- **The loop when there is room**: it takes every scanline. -/
theorem writeRows_fits (hlib : lib.Documented) {size fuel n : Nat} {dest : JpegDest}
    (hroom : lengthBefore lib p rgba p.image_height.toNat < size)
    (hn : n ≤ p.image_height.toNat) (hfuel : p.image_height.toNat < fuel + n)
    (hd : Holds dest size (lengthBefore lib p rgba n)) :
    ∃ dest', writeRows lib p rgba fuel (lines rgba p.image_width n) dest =
        .ok (lines rgba p.image_width p.image_height.toNat, dest') ∧
      Holds dest' size (lengthBefore lib p rgba p.image_height.toNat) := by
  induction fuel generalizing n dest with
  | zero => omega
  | succ fuel ih =>
    rcases hn.lt_or_eq with hlt | rfl
    · have hfits := (lengthBefore_mono lib p rgba hlt).trans_lt hroom
      obtain ⟨next, hstep, hheld⟩ := writeRows_step hlib fuel hlt hd hfits
      rw [hstep]
      exact ih hlt (by omega) hheld
    · refine ⟨dest, ?_, hd⟩
      simp only [writeRows, length_lines, lt_irrefl, ↓reduceIte]
      rfl

/-- **The loop when there is none**: it leaves a scanline behind, or does not come back. -/
theorem writeRows_full (hlib : lib.Documented) {size fuel n : Nat} {dest : JpegDest}
    (hroom : size ≤ lengthBefore lib p rgba p.image_height.toNat)
    (hn : n ≤ p.image_height.toNat) (hfuel : p.image_height.toNat < fuel + n)
    (hd : Holds dest size (lengthBefore lib p rgba n)) :
    writeRows lib p rgba fuel (lines rgba p.image_width n) dest = .error .exit ∨
      ∃ m dest', writeRows lib p rgba fuel (lines rgba p.image_width n) dest =
        .ok (lines rgba p.image_width m, dest') ∧ m < p.image_height.toNat := by
  induction fuel generalizing n dest with
  | zero => omega
  | succ fuel ih =>
    have hlt : n < p.image_height.toNat := by
      refine lt_of_le_of_ne hn fun heq => ?_
      have := hd.notFull
      rw [heq] at this
      omega
    by_cases hfits : lengthBefore lib p rgba (n + 1) < size
    · obtain ⟨next, hstep, hheld⟩ := writeRows_step hlib fuel hlt hd hfits
      rw [hstep]
      exact ih hlt (by omega) hheld
    · rcases writeRows_stop hlib fuel hlt hd (Nat.le_of_not_lt hfits) with h | ⟨dest', h⟩
      · exact .inl h
      · exact .inr ⟨n, dest', h, hlt⟩

/-! ## What `encodeRGBA` comes to -/

/-- `jpeg_start_compress` returns: the size is supported and the file header leaves room. -/
def Starts (lib : Libjpeg) (p : JpegParams) (size : Nat) : Prop :=
  lib.accepts p = true ∧ lib.headerLen p < size
  deriving Decidable

variable {malloc : BitVec 32 → Bool} {width height : BitVec 32} {quality size : Nat}

theorem start_exits (hlib : lib.Documented) (h : ¬ Starts lib ⟨width, height, quality⟩ size) :
    encodeRGBA lib malloc rgba width height quality size = .error .exit := by
  have hexited : (lib.startCompress ⟨width, height, quality⟩ size).exited = true := by
    rw [hlib.start_exits]
    by_cases hacc : lib.accepts ⟨width, height, quality⟩ = true
    · refine .inr ((hlib.start_emits _ _ hacc).emptied_iff.mpr ⟨hlib.header_pos _, ?_⟩)
      exact Nat.le_of_not_lt fun hlt => h ⟨hacc, hlt⟩
    · exact .inl (Bool.eq_false_iff.mpr hacc)
  simp only [encodeRGBA, JpegDest.after, JpegDest.initDestination, hexited]
  rfl

theorem start_holds (rgba : Mem) (hlib : lib.Documented) (h : Starts lib p size) :
    ∃ dest, (JpegDest.initDestination size).after (lib.startCompress p size) = .ok dest ∧
      Holds dest size (lengthBefore lib p rgba 0) := by
  have hheld : Holds (.initDestination size) size 0 := ⟨rfl, rfl, rfl, by have := h.2; omega⟩
  have hemits := hlib.start_emits p size h.1
  have hexit (hx : (lib.startCompress p size).exited = true) :
      (lib.startCompress p size).emptied = true := by
    refine ((hlib.start_exits p size).mp hx).resolve_left fun hacc => ?_
    rw [h.1] at hacc
    cases hacc
  obtain ⟨hafter, hnext⟩ := hheld.after_fits hemits hexit (by have := h.2; omega)
  refine ⟨_, hafter, ?_⟩
  rwa [Nat.zero_add] at hnext

theorem encodeRGBA_noMemory (hlib : lib.Documented) (h : Starts lib ⟨width, height, quality⟩ size)
    (hm : malloc (width * 3) = false) :
    encodeRGBA lib malloc rgba width height quality size = .ok ⟨-ENOMEM, 0, 0⟩ := by
  obtain ⟨dest, hstart, -⟩ := start_holds rgba hlib h
  simp only [encodeRGBA, hstart, hm]
  rfl

theorem encodeRGBA_started {dest : JpegDest} {r : Except Halt (List Scanline × JpegDest)}
    (hstart : (JpegDest.initDestination size).after
      (lib.startCompress ⟨width, height, quality⟩ size) = .ok dest) (hm : malloc (width * 3) = true)
    (hrows : writeRows lib ⟨width, height, quality⟩ rgba (height.toNat + 1) [] dest = r) :
    encodeRGBA lib malloc rgba width height quality size =
      r.bind (finishImage lib ⟨width, height, quality⟩ size) := by
  subst hrows
  simp only [encodeRGBA, hstart, hm]
  rfl

/-- The end of an image that fits. -/
theorem finishImage_fits (hlib : lib.Documented) {dest : JpegDest}
    (hd : Holds dest size (lengthBefore lib p rgba p.image_height.toNat))
    (hfits : compressedLength lib p rgba < size) :
    finishImage lib p size (lines rgba p.image_width p.image_height.toNat, dest) =
      .ok ⟨0, compressedLength lib p rgba, p.image_height.toNat⟩ := by
  have hall : (lines rgba p.image_width p.image_height.toNat).length = p.image_height.toNat :=
    length_lines _ _
  have hexit (hx) := ((hlib.finish_exits p _ dest.free_in_buffer).mp hx).resolve_left hall.not_lt
  obtain ⟨hafter, hend⟩ := hd.after_fits (hlib.finish_emits p _ _ hall) hexit hfits
  simp only [finishImage, hafter]
  show (if _ then _ else _) = _
  rw [hend.overflow, if_neg Bool.false_ne_true, length_lines, ← hend.free,
    Nat.add_sub_cancel_right]
  rfl

/-- The end of an image with scanlines missing, or whose last bytes do not fit. -/
theorem finishImage_exits (hlib : lib.Documented) {r : List Scanline × JpegDest}
    (h : r.1.length < p.image_height.toNat ∨
      (lib.finishCompress p r.1 r.2.free_in_buffer).emptied = true) :
    finishImage lib p size r = .error .exit := by
  have hexited := (hlib.finish_exits p r.1 r.2.free_in_buffer).mpr h
  simp only [finishImage, JpegDest.after, hexited]
  rfl

/-- **Room for the whole image**: every scanline is taken and `jpegSize` is its length. -/
theorem encodeRGBA_fits (hlib : lib.Documented) (h : Starts lib ⟨width, height, quality⟩ size)
    (hm : malloc (width * 3) = true)
    (hfits : compressedLength lib ⟨width, height, quality⟩ rgba < size) :
    encodeRGBA lib malloc rgba width height quality size =
      .ok ⟨0, compressedLength lib ⟨width, height, quality⟩ rgba, height.toNat⟩ := by
  obtain ⟨dest, hstart, hheld⟩ := start_holds rgba hlib h
  have hlines := (Nat.le_add_right _ _).trans_lt hfits
  obtain ⟨written, hrows, hall⟩ := writeRows_fits hlib hlines (Nat.zero_le _)
    (Nat.lt_succ_self height.toNat) hheld
  rw [encodeRGBA_started hstart hm hrows]
  exact finishImage_fits hlib hall hfits

/-- **No room**: the process does not survive the call. -/
theorem encodeRGBA_exits (hlib : lib.Documented) (h : Starts lib ⟨width, height, quality⟩ size)
    (hm : malloc (width * 3) = true)
    (hfull : size ≤ compressedLength lib ⟨width, height, quality⟩ rgba) :
    encodeRGBA lib malloc rgba width height quality size = .error .exit := by
  obtain ⟨dest, hstart, hheld⟩ := start_holds rgba hlib h
  by_cases hlines : lengthBefore lib ⟨width, height, quality⟩ rgba height.toNat < size
  · obtain ⟨written, hrows, hall⟩ := writeRows_fits hlib hlines (Nat.zero_le _)
      (Nat.lt_succ_self height.toNat) hheld
    rw [encodeRGBA_started hstart hm hrows]
    have hemits := hlib.finish_emits ⟨width, height, quality⟩ (lines rgba width height.toNat)
      written.free_in_buffer (length_lines _ _)
    exact finishImage_exits hlib (.inr ((hall.emptied_iff hemits).mpr hfull))
  · rcases writeRows_full hlib (Nat.le_of_not_lt hlines) (Nat.zero_le _)
      (Nat.lt_succ_self height.toNat) hheld with hexit | ⟨m, written, hrows, hm'⟩
    · rw [encodeRGBA_started hstart hm hexit]
      rfl
    · rw [encodeRGBA_started hstart hm hrows]
      refine finishImage_exits hlib (.inl ?_)
      rwa [length_lines]

end JpegEncoder

/-! ## The BLOB branch -/

namespace CameraDevice
open JpegEncoder

/-- The size the HAL takes the blob buffer to have. -/
def blobSize (stream : Stream) : BitVec 32 := stream.width * stream.height * 2

/-- What `encodeRGBA` does for the device's image and the stream's buffer. -/
def encoded (lib : Libjpeg) (malloc : BitVec 32 → Bool) (rgba : Mem) (stream : Stream)
    (d : CameraDevice) : Except Halt Encoded :=
  encodeRGBA lib malloc rgba d.pipeline_width d.pipeline_height 90 (blobSize stream).toNat

/-- A world in which `encodeRGBA` has returned `r`. -/
def encoderReturns (r : Encoded) (env : DeviceEnv) : DeviceEnv := fun n o =>
  match o with
  | .encodeRgba _ _ _ _ _ => (r.ret, BitVec.ofNat 32 r.jpegSize)
  | o => env n o

/-- The JPEG bytes and the trailer stored behind `offset`, both inside the buffer and apart. -/
def Apart (jpegSize : Nat) (offset size : BitVec 32) : Prop :=
  jpegSize ≤ size.toNat ∧ offset.toNat + 8 ≤ size.toNat ∧ jpegSize ≤ offset.toNat

/-- `encodeRGBA` returns an error; or it returns with every scanline taken, and the BLOB
branch, going on from there, stores a trailer apart from the JPEG. -/
def AllOrNothing (lib : Libjpeg) (malloc : BitVec 32 → Bool) (rgba : Mem) (stream : Stream)
    (d : CameraDevice) (env : DeviceEnv) : Prop :=
  ∃ r, encoded lib malloc rgba stream d = .ok r ∧
    (r.ret < 0 ∨ r.ret = 0 ∧ r.next_scanline = d.pipeline_height.toNat ∧
      ∃ offset jpegSize, ⟨.storeTrailer offset jpegSize, ()⟩ ∈
          calls (encoderReturns r env) 0 (encodeBlob rgba stream d) ∧
        jpegSize.toNat = r.jpegSize ∧ Apart r.jpegSize offset (blobSize stream))

/-- The trailer of an image that was encoded: one store, eight bytes from the end. -/
theorem storesTrailer_iff {r : Encoded} {rgba : Mem} {stream : Stream} {d : CameraDevice}
    {env : DeviceEnv} (hret : r.ret = 0) (hpos : 0 < r.jpegSize) (hlt : r.jpegSize < 2 ^ 32)
    {offset jpegSize : BitVec 32} :
    (⟨.storeTrailer offset jpegSize, ()⟩ : (o : DevOp) × o.Ans) ∈
        calls (encoderReturns r env) 0 (encodeBlob rgba stream d) ↔
      offset = blobSize stream - 8 ∧ jpegSize = BitVec.ofNat 32 r.jpegSize := by
  have hsize : BitVec.ofNat 32 r.jpegSize > 0 := by
    rw [gt_iff_lt, BitVec.lt_def, BitVec.toNat_ofNat, Nat.mod_eq_of_lt hlt]
    exact hpos
  have hcalls : calls (encoderReturns r env) 0 (encodeBlob rgba stream d) =
      [⟨.encodeRgba rgba d.pipeline_width d.pipeline_height 90 (blobSize stream),
        (r.ret, BitVec.ofNat 32 r.jpegSize)⟩,
       ⟨.storeTrailer (blobSize stream - 8) (BitVec.ofNat 32 r.jpegSize), ()⟩] := by
    show _ :: calls _ 1 ((if r.ret = 0 ∧ BitVec.ofNat 32 r.jpegSize > 0 then
      (_ : Dev Bool) else _) d) = _
    rw [if_pos ⟨hret, hsize⟩]
    rfl
  rw [hcalls]
  simp

theorem apart_iff {n : Nat} {size : BitVec 32} (hn : n < size.toNat) :
    Apart n (size - 8) size ↔ n + 8 ≤ size.toNat := by
  have hlt := size.isLt
  have h8 : (8 : BitVec 32).toNat = 8 := rfl
  rw [Apart, BitVec.toNat_sub, h8]
  omega

/-- An image that fits: the capture is all-or-nothing when the trailer fits behind it. -/
theorem allOrNothing_encoded {lib : Libjpeg} {malloc : BitVec 32 → Bool} {rgba : Mem}
    {stream : Stream} {d : CameraDevice} {env : DeviceEnv} {n : Nat}
    (hok : encoded lib malloc rgba stream d = .ok ⟨0, n, d.pipeline_height.toNat⟩) (hpos : 0 < n)
    (hfits : n < (blobSize stream).toNat) :
    AllOrNothing lib malloc rgba stream d env ↔ n + 8 ≤ (blobSize stream).toNat := by
  have hlt := hfits.trans (blobSize stream).isLt
  constructor
  · rintro ⟨r, hr, hcase⟩
    obtain rfl := Except.ok.inj (hok.symm.trans hr)
    rcases hcase with hneg | ⟨-, -, offset, jpegSize, hcall, -, hapart⟩
    · exact absurd hneg (lt_irrefl 0)
    · obtain ⟨rfl, -⟩ := (storesTrailer_iff rfl hpos hlt).mp hcall
      exact (apart_iff hfits).mp hapart
  · intro hroom
    refine ⟨_, hok, .inr ⟨rfl, rfl, _, _, (storesTrailer_iff rfl hpos hlt).mpr ⟨rfl, rfl⟩, ?_, ?_⟩⟩
    · rw [BitVec.toNat_ofNat, Nat.mod_eq_of_lt hlt]
    · exact (apart_iff hfits).mpr hroom

theorem not_allOrNothing_of_exit {lib : Libjpeg} {malloc : BitVec 32 → Bool} {rgba : Mem}
    {stream : Stream} {d : CameraDevice} {env : DeviceEnv}
    (hexit : encoded lib malloc rgba stream d = .error .exit) :
    ¬ AllOrNothing lib malloc rgba stream d env := by
  rintro ⟨r, hr, -⟩
  rw [hexit] at hr
  cases hr

/-- **BLOB captures**: all-or-nothing exactly when the file header leaves room in the buffer
and either the line buffer cannot be had or the compressed image leaves room for the trailer. -/
theorem blob_allOrNothing_iff {lib : Libjpeg} (hlib : lib.Documented) (malloc : BitVec 32 → Bool)
    (rgba : Mem) (stream : Stream) (d : CameraDevice) (env : DeviceEnv) :
    AllOrNothing lib malloc rgba stream d env ↔
      Starts lib ⟨d.pipeline_width, d.pipeline_height, 90⟩ (blobSize stream).toNat ∧
        (malloc (d.pipeline_width * 3) = false ∨
          compressedLength lib ⟨d.pipeline_width, d.pipeline_height, 90⟩ rgba + 8 ≤
            (blobSize stream).toNat) := by
  by_cases hstart : Starts lib ⟨d.pipeline_width, d.pipeline_height, 90⟩ (blobSize stream).toNat
  case neg =>
    exact iff_of_false (not_allOrNothing_of_exit (start_exits hlib hstart)) fun h => hstart h.1
  rw [and_iff_right hstart]
  by_cases hm : malloc (d.pipeline_width * 3) = true
  case neg =>
    have hm := Bool.eq_false_iff.mpr hm
    exact iff_of_true ⟨_, encodeRGBA_noMemory hlib hstart hm, .inl (by decide)⟩ (.inl hm)
  rw [or_iff_right (Bool.eq_false_iff.not_left.mpr hm)]
  by_cases hfits : compressedLength lib ⟨d.pipeline_width, d.pipeline_height, 90⟩ rgba <
      (blobSize stream).toNat
  case neg =>
    have hexit := encodeRGBA_exits hlib hstart hm (Nat.le_of_not_lt hfits)
    exact iff_of_false (not_allOrNothing_of_exit hexit) (by omega)
  exact allOrNothing_encoded (encodeRGBA_fits hlib hstart hm hfits) (compressedLength_pos hlib _ _)
    hfits

/-- A baseline encoder on a 16 by 16 black image: SOI and APP0 at the start, the tables and
the frame header with the first scanline, five bytes of Huffman code with the last one, and
the sixth one with EOI at the end. -/
def blackSquare : Libjpeg :=
  .ofLengths (fun p => 0 < p.image_width ∧ p.image_width ≤ 65500 ∧
      0 < p.image_height ∧ p.image_height ≤ 65500)
    (fun _ => 20)
    (fun p done _ => (if done.isEmpty then 603 else 0) +
      if done.length + 1 = p.image_height.toNat then 5 else 0)
    (fun _ _ => 3)

def squareDevice : CameraDevice :=
  { CameraDevice.init 0 with pipeline_width := 16, pipeline_height := 16 }

/-- A blob buffer of 640 bytes takes the 631 of the image and the trailer. -/
theorem blackSquare_captured :
    blackSquare.Documented ∧
      AllOrNothing blackSquare (fun _ => true) (fun _ => 0) ⟨0, .output, 320, 1, .blob, 1⟩ squareDevice
        deviceGrants := by
  have hlib : blackSquare.Documented := Libjpeg.ofLengths_documented fun _ => by decide
  exact ⟨hlib, (blob_allOrNothing_iff hlib _ _ _ _ _).mpr (by decide)⟩

/-- One of 626 bytes is full in the last scanline, and `jpeg_finish_compress` is called with
that scanline missing. -/
theorem blackSquare_exits :
    ¬ AllOrNothing blackSquare (fun _ => true) (fun _ => 0) ⟨0, .output, 313, 1, .blob, 1⟩ squareDevice
      deviceGrants :=
  not_allOrNothing_of_exit (encodeRGBA_exits (Libjpeg.ofLengths_documented fun _ => by decide)
    (by decide) rfl (by decide))

end CameraDevice

end MochaHal.Camera
