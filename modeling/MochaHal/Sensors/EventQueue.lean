import MochaHal.Lib.Reach
import MochaHal.Lib.Ring
import Mathlib.Logic.Function.Basic

/-! The queue of `sensors/SensorEventQueue.cpp` between one writer and one reader.
The writer asks for a region under the lock, fills it without the lock and then
marks what it wrote; the reader dequeues meanwhile.  `Channel.Inv` is kept by every
step in which the sums of `getWritableRegion` fit an `int`, and gives
`channel_fifo`: nothing is lost, duplicated or reordered and the region is never
readable.  A request length near the largest `int` makes the sum wrap and the region
leaves the array (`huge_request_leaves_array`). -/

namespace MochaHal.Sensors
open MochaHal.Reach

/-- The value a 32-bit `int` gets. -/
def int32 (x : Int) : Int := (x + 2 ^ 31) % 2 ^ 32 - 2 ^ 31

def INT_MAX : Int := 2 ^ 31 - 1

theorem int32_of_mem {x : Int} (h₁ : -2 ^ 31 ≤ x) (h₂ : x ≤ INT_MAX) : int32 x = x := by
  unfold int32
  unfold INT_MAX at h₂
  omega

/-! ## The queue -/

/-- `mData` gives the cells by index. -/
structure SensorEventQueue (α : Type) where
  mCapacity : Int
  mStart : Int
  mSize : Int
  mData : Int → α

namespace SensorEventQueue

variable {α : Type}

def new (capacity : Int) (data : Int → α) : SensorEventQueue α := ⟨capacity, 0, 0, data⟩

/-- The length of the region and the index it starts at, `none` being the null pointer. -/
def getWritableRegion (q : SensorEventQueue α) (requestedLength : Int) : Int × Option Int :=
  if q.mSize = q.mCapacity ∨ requestedLength ≤ 0 then (0, none)
  else
    let firstWritable := (int32 (q.mStart + q.mSize)).tmod q.mCapacity
    let lastWritable := int32 (int32 (firstWritable + requestedLength) - 1)
    let lastWritable :=
      if lastWritable > int32 (q.mCapacity - 1) then int32 (q.mCapacity - 1) else lastWritable
    let lastWritable :=
      if firstWritable < q.mStart ∧ lastWritable ≥ q.mStart then int32 (q.mStart - 1)
      else lastWritable
    (int32 (int32 (lastWritable - firstWritable) + 1), some firstWritable)

def markAsWritten (q : SensorEventQueue α) (count : Int) : SensorEventQueue α :=
  { q with mSize := int32 (q.mSize + count) }

/-- The index of the first readable record. -/
def peek (q : SensorEventQueue α) : Option Int := if q.mSize = 0 then none else some q.mStart

def dequeue (q : SensorEventQueue α) : SensorEventQueue α :=
  if q.mSize = 0 then q
  else { q with mSize := int32 (q.mSize - 1), mStart := (int32 (q.mStart + 1)).tmod q.mCapacity }

/-- A store through a pointer into the array. -/
def store (q : SensorEventQueue α) (i : Int) (e : α) : SensorEventQueue α :=
  { q with mData := Function.update q.mData i e }

/-! ## Shape -/

/-- The fields are the `int`s of a queue whose constructor got a positive capacity. -/
structure Valid (q : SensorEventQueue α) : Prop where
  capacity_le : q.mCapacity ≤ INT_MAX
  start_nonneg : 0 ≤ q.mStart
  start_lt : q.mStart < q.mCapacity
  size_nonneg : 0 ≤ q.mSize
  size_le : q.mSize ≤ q.mCapacity

def cap (q : SensorEventQueue α) : Nat := q.mCapacity.toNat
def start (q : SensorEventQueue α) : Nat := q.mStart.toNat
def size (q : SensorEventQueue α) : Nat := q.mSize.toNat

/-- The cell `i` places after the first readable one. -/
def slot (q : SensorEventQueue α) (i : Nat) : Nat := Ring.slot q.cap q.start i

/-- The readable records, oldest first. -/
def contents (q : SensorEventQueue α) : List α :=
  Ring.contents (fun i => q.mData i) q.cap q.start q.size

/-- The sums of `getWritableRegion` fit an `int`. -/
def Fits (q : SensorEventQueue α) (n : Int) : Prop :=
  q.mStart + q.mSize ≤ INT_MAX ∧ (q.mStart + q.mSize) % q.mCapacity + n - 1 ≤ INT_MAX

instance (q : SensorEventQueue α) (n : Int) : Decidable (q.Fits n) :=
  inferInstanceAs (Decidable (_ ∧ _))

variable {q : SensorEventQueue α}

theorem Valid.start_lt_cap (hq : q.Valid) : q.start < q.cap := by
  have := hq.start_nonneg
  have := hq.start_lt
  unfold start cap
  omega

theorem Valid.size_le_cap (hq : q.Valid) : q.size ≤ q.cap := by
  have := hq.size_nonneg
  have := hq.size_le
  unfold size cap
  omega

/-- `%` on the fields is a place in the ring. -/
theorem Valid.tmod_eq_slot (hq : q.Valid) {x : Int} {i : Nat} (hx : x = q.mStart + i) :
    x.tmod q.mCapacity = q.slot i := by
  have hs := hq.start_nonneg
  have hc := hq.start_lt
  rw [Int.tmod_eq_emod_of_nonneg (by omega), hx]
  unfold slot Ring.slot cap start
  rw [Int.natCast_emod, Int.natCast_add, Int.toNat_of_nonneg hs, Int.toNat_of_nonneg (by omega)]

theorem Valid.slot_size (hq : q.Valid) :
    (q.slot q.size : Int) = (q.mStart + q.mSize) % q.mCapacity := by
  have hs := hq.start_nonneg
  have hz := hq.size_nonneg
  rw [← Int.tmod_eq_emod_of_nonneg (by omega)]
  refine (hq.tmod_eq_slot ?_).symm
  unfold size
  omega

/-! ## What the operations do -/

/-- A region that the writer may fill: behind the readable cells, inside the array. -/
structure Free (q : SensorEventQueue α) (first size : Int) : Prop where
  pos : 1 ≤ size
  first_eq : first = q.slot q.size
  inside : first + size ≤ q.mCapacity
  room : q.mSize + size ≤ q.mCapacity

/-- The first cell of a region, on either side of the end of the array. -/
theorem Valid.slot_size_cases (hq : q.Valid) :
    (q.mStart + q.mSize < q.mCapacity ∧ (q.slot q.size : Int) = q.mStart + q.mSize) ∨
      (q.mCapacity ≤ q.mStart + q.mSize ∧ (q.slot q.size : Int) = q.mStart + q.mSize - q.mCapacity) := by
  have hslot := Ring.slot_eq hq.start_lt_cap hq.size_le_cap
  have hs := hq.start_nonneg
  have hlt := hq.start_lt
  have hz := hq.size_nonneg
  have hle := hq.size_le
  unfold slot
  unfold cap start size at hslot ⊢
  split at hslot <;> omega

theorem int32_sub_one (x : Int) : int32 (int32 x - 1) = int32 (x - 1) := by
  unfold int32
  omega

theorem int32_add_one (x : Int) : int32 (int32 x + 1) = int32 (x + 1) := by
  unfold int32
  omega

/-- The two cuts that `getWritableRegion` makes: not past the array, not into the
readable cells. -/
def cut (q : SensorEventQueue α) (first last : Int) : Int :=
  let last := if last > q.mCapacity - 1 then q.mCapacity - 1 else last
  if first < q.mStart ∧ last ≥ q.mStart then q.mStart - 1 else last

theorem Valid.cut_bounds (hq : q.Valid) (hfull : q.mSize ≠ q.mCapacity) {last : Int}
    (hlast : q.slot q.size ≤ last) :
    q.slot q.size ≤ q.cut (q.slot q.size) last ∧ q.cut (q.slot q.size) last ≤ q.mCapacity - 1 ∧
      q.cut (q.slot q.size) last < q.slot q.size + (q.mCapacity - q.mSize) := by
  have hs := hq.start_nonneg
  have hlt := hq.start_lt
  have hz := hq.size_nonneg
  have hle := hq.size_le
  have hcases := hq.slot_size_cases
  unfold cut
  dsimp only
  split_ifs <;> omega

theorem getWritableRegion_eq (hq : q.Valid) {n : Int} (hn : 1 ≤ n) (hfull : q.mSize ≠ q.mCapacity)
    (hsum : q.mStart + q.mSize ≤ INT_MAX) :
    q.getWritableRegion n =
      (int32 (q.cut (q.slot q.size) (int32 (q.slot q.size + n - 1)) - q.slot q.size + 1),
        some (q.slot q.size : Int)) := by
  have hc := hq.capacity_le
  have hs := hq.start_nonneg
  have hlt := hq.start_lt
  have hz := hq.size_nonneg
  have hfirst : (int32 (q.mStart + q.mSize)).tmod q.mCapacity = q.slot q.size := by
    refine hq.tmod_eq_slot ?_
    rw [int32_of_mem (by omega) hsum]
    unfold size
    omega
  unfold getWritableRegion
  rw [if_neg (by omega), hfirst, int32_of_mem (by omega : -2 ^ 31 ≤ q.mCapacity - 1) (by omega),
    int32_of_mem (by omega : -2 ^ 31 ≤ q.mStart - 1) (by omega)]
  simp only [int32_sub_one, int32_add_one]
  rfl

theorem getWritableRegion_free (hq : q.Valid) {n : Int} (hn : 1 ≤ n) (hfull : q.mSize ≠ q.mCapacity)
    (hfit : q.Fits n) :
    ∃ first size, q.getWritableRegion n = (size, some first) ∧ q.Free first size := by
  have hlast : int32 (q.slot q.size + n - 1) = q.slot q.size + n - 1 :=
    int32_of_mem (by omega) (by rw [hq.slot_size]; exact hfit.2)
  have hc := hq.capacity_le
  have hz := hq.size_nonneg
  obtain ⟨hle, hin, hroom⟩ := hq.cut_bounds hfull (by omega : q.slot q.size ≤ q.slot q.size + n - 1)
  rw [getWritableRegion_eq hq hn hfull hfit.1, hlast, int32_of_mem (by omega) (by omega)]
  exact ⟨_, _, rfl, by omega, rfl, by omega, by omega⟩

/-- The cells of a free region continue the readable ones. -/
theorem Free.cell_eq {first size : Int} (hq : q.Valid) (h : q.Free first size) {i : Nat}
    (hi : i < size) : first + i = q.slot (q.size + i) := by
  have hin := h.inside
  rw [h.first_eq] at hin ⊢
  unfold slot at hin ⊢
  rw [← Ring.slot_slot, Ring.slot_eq (Ring.slot_lt hq.start_lt_cap _), if_pos]
  · exact (Int.natCast_add _ _).symm
  · unfold cap at hin ⊢
    omega
  · unfold cap at hin ⊢
    omega

/-- No readable cell is in a free region. -/
theorem Free.disjoint {first size : Int} (hq : q.Valid) (h : q.Free first size) {i j : Nat}
    (hi : i < size) (hj : j < q.size) : first + i ≠ q.slot j := by
  rw [h.cell_eq hq hi]
  have hroom := h.room
  have hne := Ring.slot_ne hq.start_lt_cap (show j < q.size + i by omega)
    (by have := hq.size_nonneg; unfold SensorEventQueue.size cap; omega)
  exact fun he => hne (Int.ofNat.inj he).symm

theorem store_contents {first size : Int} (hq : q.Valid) (h : q.Free first size) {i : Nat}
    (hi : i < size) (e : α) : (q.store (first + i) e).contents = q.contents := by
  refine Ring.contents_congr fun j hj => ?_
  show Function.update q.mData (first + i) e (q.slot j) = q.mData (q.slot j)
  exact Function.update_of_ne (h.disjoint hq hi hj).symm _ _

theorem dequeue_eq (hq : q.Valid) (hne : q.mSize ≠ 0) :
    q.dequeue = { q with mSize := q.mSize - 1, mStart := q.slot 1 } := by
  have hc := hq.capacity_le
  have hs := hq.start_nonneg
  have hlt := hq.start_lt
  have hz := hq.size_nonneg
  have hle := hq.size_le
  have hstep : (q.mStart + 1).tmod q.mCapacity = q.slot 1 := hq.tmod_eq_slot rfl
  unfold dequeue
  rw [if_neg hne, int32_of_mem (by omega : -2 ^ 31 ≤ q.mSize - 1) (by omega),
    int32_of_mem (by omega : -2 ^ 31 ≤ q.mStart + 1) (by omega), hstep]

theorem dequeue_valid (hq : q.Valid) : q.dequeue.Valid := by
  by_cases hne : q.mSize = 0
  · rwa [dequeue, if_pos hne]
  · rw [dequeue_eq hq hne]
    have hlt := Ring.slot_lt hq.start_lt_cap 1
    have hz := hq.size_nonneg
    refine ⟨hq.capacity_le, Int.natCast_nonneg _, ?_, ?_, ?_⟩
    · show (q.slot 1 : Int) < q.mCapacity
      unfold slot
      unfold cap at hlt ⊢
      omega
    · show 0 ≤ q.mSize - 1
      omega
    · show q.mSize - 1 ≤ q.mCapacity
      have := hq.size_le
      omega

/-- Dequeuing moves the readable cells, not the place behind them. -/
theorem dequeue_slot (hq : q.Valid) (hne : q.mSize ≠ 0) (i : Nat) :
    q.dequeue.slot i = q.slot (1 + i) := by
  rw [dequeue_eq hq hne]
  exact Ring.slot_slot

theorem dequeue_size (hq : q.Valid) (hne : q.mSize ≠ 0) : q.size = 1 + q.dequeue.size := by
  rw [dequeue_eq hq hne]
  have := hq.size_nonneg
  show q.mSize.toNat = 1 + (q.mSize - 1).toNat
  omega

theorem dequeue_free {first size : Int} (hq : q.Valid) (h : q.Free first size) :
    q.dequeue.Free first size := by
  by_cases hne : q.mSize = 0
  · rwa [dequeue, if_pos hne]
  · refine ⟨h.pos, ?_, ?_, ?_⟩
    · rw [dequeue_slot hq hne, ← dequeue_size hq hne]
      exact h.first_eq
    · rw [dequeue_eq hq hne]
      exact h.inside
    · rw [dequeue_eq hq hne]
      have := h.room
      show q.mSize - 1 + size ≤ q.mCapacity
      omega

/-- What `peek` shows is the first readable record, and `dequeue` takes it off. -/
theorem dequeue_contents (hq : q.Valid) (hne : q.mSize ≠ 0) :
    q.contents = q.mData q.mStart :: q.dequeue.contents := by
  have hstart : (q.start : Int) = q.mStart := Int.toNat_of_nonneg hq.start_nonneg
  unfold contents
  rw [dequeue_size hq hne, Nat.add_comm, Ring.contents_succ hq.start_lt_cap, hstart, dequeue_eq hq hne]
  rfl

theorem markAsWritten_eq {first size : Int} (hq : q.Valid) (h : q.Free first size) {k : Nat}
    (hk : k ≤ size) : q.markAsWritten k = { q with mSize := q.mSize + k } := by
  have hc := hq.capacity_le
  have hz := hq.size_nonneg
  have hroom := h.room
  unfold markAsWritten
  rw [int32_of_mem (by omega) (by omega)]

theorem markAsWritten_valid {first size : Int} (hq : q.Valid) (h : q.Free first size) {k : Nat}
    (hk : k ≤ size) : (q.markAsWritten k).Valid := by
  rw [markAsWritten_eq hq h hk]
  have hz := hq.size_nonneg
  have hroom := h.room
  refine ⟨hq.capacity_le, hq.start_nonneg, hq.start_lt, ?_, ?_⟩
  · show 0 ≤ q.mSize + k
    omega
  · show q.mSize + k ≤ q.mCapacity
    omega

theorem markAsWritten_contents {first size : Int} (hq : q.Valid) (h : q.Free first size) {k : Nat}
    (hk : k ≤ size) : (q.markAsWritten k).contents =
      q.contents ++ (List.range k).map fun i : Nat => q.mData (first + i) := by
  have hsize : (q.mSize + k).toNat = q.size + k := by
    have := hq.size_nonneg
    unfold SensorEventQueue.size
    omega
  rw [markAsWritten_eq hq h hk]
  unfold contents
  show Ring.contents _ q.cap q.start (q.mSize + k).toNat = _
  rw [hsize, Ring.contents_add]
  refine congrArg _ (List.map_congr_left fun i hi => congrArg q.mData ?_)
  rw [List.mem_range] at hi
  rw [h.cell_eq hq (by omega), Ring.slot_slot]
  rfl

end SensorEventQueue

/-! ## One writer and one reader -/

/-- The region the writer holds, and what it has stored at each place. -/
structure Region (α : Type) where
  first : Int
  size : Int
  stored : Nat → Option α

/-- The first `k` records of the region. -/
def Region.events {α : Type} (r : Region α) (k : Nat) : List α := (List.range k).filterMap r.stored

/-- The queue, the region that is outstanding, and what was marked and dequeued so far. -/
structure Channel (α : Type) where
  queue : SensorEventQueue α
  region : Option (Region α)
  written : List α
  dequeued : List α

/-- Steps of the writer, then of the reader.  `acquire` is the critical section with
`waitForSpace` and `getWritableRegion`, `store` happens without the lock, `mark` is
`markAsWritten`, and `giveUp` goes back to the start without marking. -/
inductive ChannelStep (α : Type)
  | acquire (n : Int)
  | store (i : Nat) (e : α)
  | mark (k : Nat)
  | giveUp
  | peek
  | dequeue

namespace Channel

variable {α : Type}

def new (capacity : Int) (data : Int → α) : Channel α := ⟨.new capacity data, none, [], []⟩

/-- The writer gets its region, or goes on waiting while the queue is full. -/
def acquire (c : Channel α) (n : Int) : Channel α :=
  if c.queue.mSize = c.queue.mCapacity then c
  else
    match c.queue.getWritableRegion n with
    | (size, some first) => { c with region := some ⟨first, size, fun _ => none⟩ }
    | (_, none) => c

def store (c : Channel α) (r : Region α) (i : Nat) (e : α) : Channel α :=
  { c with
    queue := c.queue.store (r.first + i) e
    region := some { r with stored := Function.update r.stored i (some e) } }

def mark (c : Channel α) (r : Region α) (k : Nat) : Channel α :=
  { c with
    queue := c.queue.markAsWritten k
    region := none
    written := c.written ++ r.events k }

/-- The record at the index `peek` returns leaves the queue. -/
def dequeue (c : Channel α) : Channel α :=
  { c with
    queue := c.queue.dequeue
    dequeued := c.dequeued ++ (c.queue.peek.map c.queue.mData).toList }

def step (c : Channel α) : ChannelStep α → Option (Channel α)
  | .acquire n => if c.region.isNone ∧ 1 ≤ n ∧ n ≤ INT_MAX then some (c.acquire n) else none
  | .store i e =>
    match c.region with
    | some r => if i < r.size then some (c.store r i e) else none
    | none => none
  | .mark k =>
    match c.region with
    | some r => if k ≤ r.size ∧ ∀ i < k, (r.stored i).isSome then some (c.mark r k) else none
    | none => none
  | .giveUp => some { c with region := none }
  | .peek => some c
  | .dequeue => some c.dequeue

/-- The sums of `getWritableRegion` fit an `int`, where it is called. -/
def FitsAt (c : Channel α) : ChannelStep α → Prop
  | .acquire n => c.queue.mSize ≠ c.queue.mCapacity → c.queue.Fits n
  | _ => True

structure Inv (capacity : Int) (c : Channel α) : Prop where
  capacity_eq : c.queue.mCapacity = capacity
  valid : c.queue.Valid
  free : ∀ r ∈ c.region, c.queue.Free r.first r.size
  stored : ∀ r ∈ c.region, ∀ (i : Nat) e, r.stored i = some e → c.queue.mData (r.first + i) = e
  fifo : c.dequeued ++ c.queue.contents = c.written

variable {capacity : Int} {c : Channel α}

theorem new_inv (hcap : 1 ≤ capacity) (hmax : capacity ≤ INT_MAX) (data : Int → α) :
    Inv capacity (new capacity data) where
  capacity_eq := rfl
  valid := ⟨hmax, Int.le_refl 0, Int.lt_of_lt_of_le Int.zero_lt_one hcap, Int.le_refl 0,
    Int.le_trans Int.one_nonneg hcap⟩
  free _ hr := absurd hr (by simp [new])
  stored _ hr := absurd hr (by simp [new])
  fifo := rfl

theorem Inv.acquire (h : Inv capacity c) {n : Int} (hn : 1 ≤ n)
    (hfit : c.FitsAt (.acquire n)) : Inv capacity (c.acquire n) := by
  unfold Channel.acquire
  split
  case isTrue hfull => exact h
  case isFalse hfull =>
    obtain ⟨first, size, heq, hfree⟩ :=
      SensorEventQueue.getWritableRegion_free h.valid hn hfull (hfit hfull)
    rw [heq]
    refine ⟨h.capacity_eq, h.valid, ?_, ?_, h.fifo⟩
    · rintro r hr
      obtain rfl := Option.some.inj hr
      exact hfree
    · rintro r hr i e he
      obtain rfl := Option.some.inj hr
      cases he

theorem Inv.store (h : Inv capacity c) {r : Region α} (hr : r ∈ c.region) {i : Nat} (hi : i < r.size)
    (e : α) : Inv capacity (c.store r i e) := by
  have hfree := h.free r hr
  refine ⟨h.capacity_eq, ⟨h.valid.1, h.valid.2, h.valid.3, h.valid.4, h.valid.5⟩, ?_, ?_, ?_⟩
  · rintro r' hr'
    obtain rfl := Option.some.inj hr'
    exact ⟨hfree.1, hfree.2, hfree.3, hfree.4⟩
  · rintro r' hr' j e' he'
    obtain rfl := Option.some.inj hr'
    change Function.update r.stored i (some e) j = some e' at he'
    show Function.update c.queue.mData (r.first + i) e (r.first + j) = e'
    by_cases hj : j = i
    · subst hj
      rw [Function.update_self] at he' ⊢
      exact Option.some.inj he'
    · rw [Function.update_of_ne hj] at he'
      rw [Function.update_of_ne (by omega)]
      exact h.stored r hr j e' he'
  · show c.dequeued ++ (c.queue.store (r.first + i) e).contents = c.written
    rw [SensorEventQueue.store_contents h.valid hfree hi]
    exact h.fifo

/-- The marked records are the ones in the cells. -/
theorem Inv.events_eq (h : Inv capacity c) {r : Region α} (hr : r ∈ c.region) {k : Nat}
    (hk : ∀ i < k, (r.stored i).isSome) :
    r.events k = (List.range k).map fun i : Nat => c.queue.mData (r.first + i) := by
  unfold Region.events
  rw [← List.filterMap_eq_map]
  refine List.filterMap_congr fun i hi => ?_
  obtain ⟨e, he⟩ := Option.isSome_iff_exists.mp (hk i (List.mem_range.mp hi))
  rw [he, Function.comp_apply, h.stored r hr i e he]

theorem Inv.mark (h : Inv capacity c) {r : Region α} (hr : r ∈ c.region) {k : Nat} (hsize : k ≤ r.size)
    (hk : ∀ i < k, (r.stored i).isSome) : Inv capacity (c.mark r k) := by
  have hfree := h.free r hr
  refine ⟨h.capacity_eq, SensorEventQueue.markAsWritten_valid h.valid hfree hsize, ?_, ?_, ?_⟩
  · intro r' hr'
    cases hr'
  · intro r' hr'
    cases hr'
  · show c.dequeued ++ (c.queue.markAsWritten k).contents = c.written ++ r.events k
    rw [SensorEventQueue.markAsWritten_contents h.valid hfree hsize, h.events_eq hr hk, ← h.fifo,
      List.append_assoc]

theorem Inv.dequeue (h : Inv capacity c) : Inv capacity c.dequeue := by
  refine ⟨?_, SensorEventQueue.dequeue_valid h.valid, fun r hr => ?_, fun r hr i e he => ?_, ?_⟩
  · show c.queue.dequeue.mCapacity = capacity
    rw [← h.capacity_eq, SensorEventQueue.dequeue]
    split <;> rfl
  · exact SensorEventQueue.dequeue_free h.valid (h.free r hr)
  · show c.queue.dequeue.mData (r.first + i) = e
    rw [← h.stored r hr i e he, SensorEventQueue.dequeue]
    split <;> rfl
  · show c.dequeued ++ (c.queue.peek.map c.queue.mData).toList ++ c.queue.dequeue.contents = c.written
    rw [← h.fifo, List.append_assoc]
    by_cases hne : c.queue.mSize = 0
    · rw [SensorEventQueue.peek, if_pos hne, SensorEventQueue.dequeue, if_pos hne]
      rfl
    · rw [SensorEventQueue.peek, if_neg hne, SensorEventQueue.dequeue_contents h.valid hne]
      rfl

theorem step_acquire {n : Int} {c' : Channel α} (hs : c.step (.acquire n) = some c') :
    1 ≤ n ∧ c' = c.acquire n := by
  rw [step] at hs
  split at hs
  case isTrue hn => exact ⟨hn.2.1, (Option.some.inj hs).symm⟩
  case isFalse => cases hs

theorem step_store {i : Nat} {e : α} {c' : Channel α} (hs : c.step (.store i e) = some c') :
    ∃ r ∈ c.region, i < r.size ∧ c' = c.store r i e := by
  cases hr : c.region with
  | none => simp [step, hr] at hs
  | some r =>
    simp only [step, hr] at hs
    split at hs
    case isTrue hi => exact ⟨r, rfl, hi, (Option.some.inj hs).symm⟩
    case isFalse => cases hs

theorem step_mark {k : Nat} {c' : Channel α} (hs : c.step (.mark k) = some c') :
    ∃ r ∈ c.region, (k ≤ r.size ∧ ∀ i < k, (r.stored i).isSome) ∧ c' = c.mark r k := by
  cases hr : c.region with
  | none => simp [step, hr] at hs
  | some r =>
    simp only [step, hr] at hs
    split at hs
    case isTrue hk => exact ⟨r, rfl, hk, (Option.some.inj hs).symm⟩
    case isFalse => cases hs

/-- **Step lemma.** -/
theorem step_inv {i : ChannelStep α} {c' : Channel α} (h : Inv capacity c)
    (hs : c.step i = some c') (hfit : c.FitsAt i) : Inv capacity c' := by
  cases i with
  | acquire n =>
    obtain ⟨hn, rfl⟩ := step_acquire hs
    exact h.acquire hn hfit
  | store i e =>
    obtain ⟨r, hr, hi, rfl⟩ := step_store hs
    exact h.store hr hi e
  | mark k =>
    obtain ⟨r, hr, hk, rfl⟩ := step_mark hs
    exact h.mark hr hk.1 hk.2
  | giveUp =>
    obtain rfl := Option.some.inj hs
    exact ⟨h.capacity_eq, h.valid, fun _ hr => (by cases hr), fun _ hr => (by cases hr), h.fifo⟩
  | peek =>
    obtain rfl := Option.some.inj hs
    exact h
  | dequeue =>
    obtain rfl := Option.some.inj hs
    exact h.dequeue

/-! ## Runs -/

/-- What reader and writer rely on. -/
structure Safe (capacity : Int) (c : Channel α) : Prop where
  start_mem : 0 ≤ c.queue.mStart ∧ c.queue.mStart < capacity
  size_mem : 0 ≤ c.queue.mSize ∧ c.queue.mSize ≤ capacity
  region_inside : ∀ r ∈ c.region, 1 ≤ r.size ∧ 0 ≤ r.first ∧ r.first + r.size ≤ capacity
  region_unreadable : ∀ r ∈ c.region, ∀ i j : Nat, i < r.size → j < c.queue.mSize →
    r.first + i ≠ (c.queue.mStart + j) % capacity
  fifo : c.dequeued ++ c.queue.contents = c.written

theorem Inv.safe (h : Inv capacity c) : Safe capacity c where
  start_mem := ⟨h.valid.start_nonneg, h.capacity_eq ▸ h.valid.start_lt⟩
  size_mem := ⟨h.valid.size_nonneg, h.capacity_eq ▸ h.valid.size_le⟩
  region_inside r hr := by
    have hfree := h.free r hr
    refine ⟨hfree.pos, ?_, h.capacity_eq ▸ hfree.inside⟩
    rw [hfree.first_eq]
    exact Int.natCast_nonneg _
  region_unreadable r hr i j hi hj := by
    have hs := h.valid.start_nonneg
    have hne := (h.free r hr).disjoint h.valid hi (j := j) (by unfold SensorEventQueue.size; omega)
    rwa [← h.valid.tmod_eq_slot rfl, Int.tmod_eq_emod_of_nonneg (by omega), h.capacity_eq] at hne
  fifo := h.fifo

theorem acquire_eq {n first size : Int} (hfull : c.queue.mSize ≠ c.queue.mCapacity)
    (hget : c.queue.getWritableRegion n = (size, some first)) :
    c.acquire n = { c with region := some ⟨first, size, fun _ => none⟩ } := by
  rw [Channel.acquire, if_neg hfull, hget]

/-- A sum that wraps to a negative value puts the region before the array or on its
first cell, which is readable then. -/
theorem acquire_start_wraps (h : Inv capacity c) {n : Int} (hn : 1 ≤ n)
    (hfull : c.queue.mSize ≠ c.queue.mCapacity) (hsum : INT_MAX < c.queue.mStart + c.queue.mSize) :
    ¬ Safe capacity (c.acquire n) := by
  have hc := h.valid.capacity_le
  have hlt := h.valid.start_lt
  have hle := h.valid.size_le
  have hcap := h.capacity_eq
  have hneg : int32 (c.queue.mStart + c.queue.mSize) ≤ 0 := by
    unfold int32
    unfold INT_MAX at hsum hc
    omega
  obtain ⟨size, hget⟩ : ∃ size, c.queue.getWritableRegion n =
      (size, some ((int32 (c.queue.mStart + c.queue.mSize)).tmod c.queue.mCapacity)) := by
    unfold SensorEventQueue.getWritableRegion
    rw [if_neg (by omega)]
    exact ⟨_, rfl⟩
  rw [acquire_eq hfull hget]
  intro hsafe
  obtain ⟨hpos, hnonneg, -⟩ := hsafe.region_inside _ rfl
  dsimp only at hpos hnonneg
  have hfirst : (int32 (c.queue.mStart + c.queue.mSize)).tmod c.queue.mCapacity = 0 :=
    Int.le_antisymm (by
      have := Int.tmod_nonneg c.queue.mCapacity (Int.neg_nonneg_of_nonpos hneg)
      rw [Int.neg_tmod] at this
      omega) hnonneg
  have hj : ((c.queue.mCapacity - c.queue.mStart).toNat : Int) = c.queue.mCapacity - c.queue.mStart :=
    Int.toNat_of_nonneg (by omega)
  refine hsafe.region_unreadable _ rfl 0 (c.queue.mCapacity - c.queue.mStart).toNat ?_ ?_ ?_
  · dsimp only
    omega
  · dsimp only
    omega
  · dsimp only
    rw [hfirst, hj, ← hcap, show c.queue.mStart + (c.queue.mCapacity - c.queue.mStart)
      = c.queue.mCapacity by omega, Int.emod_self]
    rfl

/-- A last cell that wraps is not cut, so the region has all `n` cells. -/
theorem acquire_last_wraps (h : Inv capacity c) {n : Int} (hn : 1 ≤ n) (hmax : n ≤ INT_MAX)
    (hfull : c.queue.mSize ≠ c.queue.mCapacity) (hsum : c.queue.mStart + c.queue.mSize ≤ INT_MAX)
    (hlast : INT_MAX < c.queue.slot c.queue.size + n - 1) :
    ¬ Safe capacity (c.acquire n) := by
  have hc := h.valid.capacity_le
  have hs := h.valid.start_nonneg
  have hlt := h.valid.start_lt
  have hslot : (c.queue.slot c.queue.size : Int) < c.queue.mCapacity := by
    have := Ring.slot_lt h.valid.start_lt_cap c.queue.size
    unfold SensorEventQueue.cap at this
    unfold SensorEventQueue.slot SensorEventQueue.cap
    omega
  have hwrap : int32 (c.queue.slot c.queue.size + n - 1) = c.queue.slot c.queue.size + n - 1 - 2 ^ 32 := by
    unfold int32
    unfold INT_MAX at hmax hlast hc
    omega
  have hcut : c.queue.cut (c.queue.slot c.queue.size) (c.queue.slot c.queue.size + n - 1 - 2 ^ 32) =
      c.queue.slot c.queue.size + n - 1 - 2 ^ 32 := by
    unfold INT_MAX at hmax hc
    unfold SensorEventQueue.cut
    dsimp only
    rw [if_neg (by omega), if_neg (by omega)]
  have hget := SensorEventQueue.getWritableRegion_eq h.valid hn hfull hsum
  rw [hwrap, hcut] at hget
  rw [acquire_eq hfull hget]
  intro hsafe
  obtain ⟨-, -, hin⟩ := hsafe.region_inside _ rfl
  have hsize : int32 (c.queue.slot c.queue.size + n - 1 - 2 ^ 32 - c.queue.slot c.queue.size + 1) = n := by
    unfold int32
    unfold INT_MAX at hmax
    omega
  dsimp only at hin
  rw [hsize, ← h.capacity_eq] at hin
  omega

/-- A region is safe exactly if the sums fit. -/
theorem acquire_safe_iff (h : Inv capacity c) {n : Int} (hn : 1 ≤ n) (hmax : n ≤ INT_MAX)
    (hfull : c.queue.mSize ≠ c.queue.mCapacity) :
    Safe capacity (c.acquire n) ↔ c.queue.Fits n := by
  constructor
  · intro hsafe
    by_contra hnot
    by_cases hsum : c.queue.mStart + c.queue.mSize ≤ INT_MAX
    · refine acquire_last_wraps h hn hmax hfull hsum ?_ hsafe
      rw [h.valid.slot_size]
      exact Int.not_le.mp fun hlast => hnot ⟨hsum, hlast⟩
    · exact acquire_start_wraps h hn hfull (Int.not_le.mp hsum) hsafe
  · exact fun hfit => (h.acquire hn fun _ => hfit).safe

/-- Channels reached from an empty queue of `capacity`, by steps that meet `ok`. -/
abbrev Run (capacity : Int) (ok : Channel α → ChannelStep α → Prop) : Channel α → Prop :=
  Reachable (fun c => ∃ data, c = new capacity data) (fun c i c' => c.step i = some c') ok

/-- **FIFO.** The last part says that the condition on the run cannot be weakened. -/
theorem channel_fifo (capacity : Int) (hcap : 1 ≤ capacity) (hmax : capacity ≤ INT_MAX) (c : Channel α)
    (h : Run capacity FitsAt c) : Safe capacity c ∧
      ∀ n, 1 ≤ n → n ≤ INT_MAX → c.queue.mSize ≠ c.queue.mCapacity →
        (Safe capacity (c.acquire n) ↔ c.queue.Fits n) := by
  have hinv : Inv capacity c := by
    refine h.invariant ?_ ?_
    · rintro c ⟨data, rfl⟩
      exact new_inv hcap hmax data
    · intro c i c' hc hok hs
      exact step_inv hc hs hok
  exact ⟨hinv.safe, fun n hn hn' hfull => acquire_safe_iff hinv hn hn' hfull⟩

instance (c : Channel α) (i : ChannelStep α) : Decidable (c.FitsAt i) :=
  match i with
  | .acquire n => inferInstanceAs (Decidable (c.queue.mSize ≠ c.queue.mCapacity → c.queue.Fits n))
  | .store _ _ | .mark _ | .giveUp | .peek | .dequeue => isTrue trivial

/-- Two records into a queue of three, then a region of one while a record is read. -/
def shortRun : List (ChannelStep Nat) :=
  [.acquire 3, .store 1 8, .store 0 7, .mark 2, .acquire 3, .dequeue]

/-- Where a run of steps that fit ends. -/
def replay (is : List (ChannelStep Nat)) (c : Channel Nat) : Option (Channel Nat) :=
  is.foldlM (fun c i => if c.FitsAt i then c.step i else none) c

theorem channel_fifo_run :
    (replay shortRun (new 3 fun _ => 0)).isSome = true ∧
      ∀ c ∈ replay shortRun (new 3 fun _ => 0), Safe 3 c :=
  ⟨by decide, fun c hc => (channel_fifo 3 (by decide) (by decide) c
    (reachable_foldlM shortRun (.start ⟨_, rfl⟩) hc)).1⟩

/-- A request of the largest `int` behind two records. -/
def hugeRun : List (ChannelStep Nat) := [.acquire 2, .store 0 7, .store 1 8, .mark 2, .acquire INT_MAX]

def hugeEnd : Option (Channel Nat) :=
  hugeRun.foldlM (fun c i => if True then c.step i else none) (new 4 fun _ => 0)

theorem hugeEnd_region : (hugeEnd.bind fun c => c.region).map (fun r => r.first + r.size) =
    some (INT_MAX + 2) := by
  decide

theorem huge_request_leaves_array :
    ¬ ∀ (capacity : Int) (c : Channel Nat), 1 ≤ capacity → capacity ≤ INT_MAX →
      Run capacity (fun _ _ => True) c → Safe capacity c := by
  intro h
  obtain ⟨r, hr, hend⟩ := Option.map_eq_some_iff.mp hugeEnd_region
  obtain ⟨c, hc, hcr⟩ := Option.bind_eq_some_iff.mp hr
  have hrun : Run 4 (fun _ _ => True) c := reachable_foldlM hugeRun (.start ⟨_, rfl⟩) hc
  have hin := ((h 4 c (by decide) (by decide) hrun).region_inside r hcr).2.2
  rw [hend] at hin
  exact absurd hin (by decide)

end Channel

end MochaHal.Sensors
