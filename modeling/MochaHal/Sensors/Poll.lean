import MochaHal.Sensors.Multihal

/-! `poll` and the writer tasks at work together.  `Inv` is kept by every step of
every thread, in any order: a nonempty queue is always nearer to the next index to
be read than the rounds that are left to count it out, a blocked `poll` has its flag
set, and only a task that still has to test the flag can have filled a queue under a
blocked `poll`.  So `poll` never sleeps on data and the events it takes are those of
the queues in order (`poll_sound`). -/

namespace MochaHal.Sensors
open MochaHal.Reach

/-! ## Calls -/

/-- `data` holds what was taken and not dropped, and no slot from `maxReads` on was written. -/
structure PollCall.Sound (handles : GlobalHandles) (call : PollCall) : Prop where
  delivered : (List.range call.eventsRead).map call.data = call.taken.filterMap (deliver handles)
  slots_lt : ∀ n ∈ call.slots, n < call.maxReads

theorem PollCall.begin_sound (handles : GlobalHandles) (data : Nat → SensorsEvent) (maxReads : Nat) :
    (PollCall.begin data maxReads).Sound handles :=
  ⟨rfl, fun _ hn => absurd hn List.not_mem_nil⟩

/-- A slot that is written behind the delivered events changes none of them. -/
theorem range_map_update {n : Nat} (data : Nat → SensorsEvent) (e : SensorsEvent) :
    (List.range n).map (Function.update data n e) = (List.range n).map data :=
  List.map_congr_left fun _ hi =>
    Function.update_of_ne (Nat.ne_of_lt (List.mem_range.mp hi)) _ _

theorem PollCall.take_sound {handles : GlobalHandles} {call : PollCall} (h : call.Sound handles)
    (hlt : call.eventsRead < call.maxReads) (i : Nat) (src : SensorsEvent) :
    (call.take handles i src).Sound handles := by
  constructor
  · show (List.range (if (copyEventRemapHandle handles src i).sensor = -1 then call.eventsRead
        else call.eventsRead + 1)).map (Function.update call.data call.eventsRead
          (copyEventRemapHandle handles src i)) =
      (call.taken ++ [(i, src)]).filterMap (deliver handles)
    rw [List.filterMap_append, ← h.delivered]
    by_cases hbad : (copyEventRemapHandle handles src i).sensor = -1
    · rw [if_pos hbad, range_map_update]
      simp [deliver, hbad]
    · rw [if_neg hbad, List.range_succ, List.map_append, range_map_update]
      simp [deliver, hbad]
  · intro n hn
    rcases List.mem_append.mp hn with hn | hn
    · exact h.slots_lt n hn
    · obtain rfl := List.mem_singleton.mp hn
      exact hlt

theorem PollCall.take_takenFrom (handles : GlobalHandles) (call : PollCall) (i j : Nat)
    (src : SensorsEvent) : (call.take handles i src).takenFrom j =
      call.takenFrom j ++ if i = j then [src] else [] := by
  show (call.taken ++ [(i, src)]).filterMap _ = _
  rw [List.filterMap_append]
  refine congrArg _ ?_
  by_cases hij : i = j
  · simp [hij]
  · simp [hij]

namespace Hal

/-! ## The invariant -/

def sizeOf (s : Hal) (i : Nat) : Int := (s.queues i).queue.mSize

/-- What all calls have taken from queue `i`, in order. -/
def takenFrom (s : Hal) (i : Nat) : List SensorsEvent :=
  s.returned.flatMap (fun call => call.takenFrom i) ++ s.call.takenFrom i

structure Inv (handles : GlobalHandles) (queueCount : Nat) (s : Hal) : Prop where
  channels : ∀ i, (s.queues i).Inv SENSOR_EVENT_QUEUE_CAPACITY
  next_lt : s.nextReadIndex < queueCount
  poll_holds : s.poll = .scanning ↔ s.mutex = .poll
  writer_holds : ∀ i, s.writers i ≠ .outside ↔ s.mutex = .writer i
  /-- Queues that were counted as empty still are. -/
  scanned : s.poll = .scanning → ∀ i < queueCount, s.sizeOf i ≠ 0 →
    Ring.ahead queueCount s.nextReadIndex i + s.call.empties < queueCount
  reads_le : s.call.eventsRead ≤ s.call.maxReads
  max_pos : s.poll ≠ .outside → 1 ≤ s.call.maxReads
  waiting : s.poll = .blocked ∨ s.poll = .woken → s.waiting_for_data = true
  asleep : s.poll = .blocked → ∀ i < queueCount, s.sizeOf i = 0 ∨ ∃ a, s.writers i = .marked a
  marked : ∀ i, s.writers i = .marked true → s.waiting_for_data = true
  told : ∀ i a b, s.writers i = .told a b → a = true → b = true
  idle : s.poll = .outside → s.call.taken = []
  call : s.call.Sound handles
  done : ∀ c ∈ s.returned, c.Sound handles ∧ 1 ≤ c.eventsRead ∧ c.eventsRead ≤ c.maxReads
  taken : ∀ i, s.takenFrom i = (s.queues i).dequeued

variable {handles : GlobalHandles} {queueCount : Nat} {s : Hal}

theorem init_inv (hq : 1 ≤ queueCount) (cells : Nat → Int → SensorsEvent) (data : Nat → SensorsEvent) :
    Inv handles queueCount (init cells data) where
  channels i := Channel.new_inv (by decide) (by decide) (cells i)
  next_lt := hq
  poll_holds := by simp [init]
  writer_holds := by simp [init]
  scanned h := by cases h
  reads_le := le_refl _
  max_pos h := absurd rfl h
  waiting h := by rcases h with h | h <;> cases h
  asleep h := by cases h
  marked _ h := by cases h
  told _ _ _ h := by cases h
  idle _ := rfl
  call := PollCall.begin_sound handles data 0
  done _ h := absurd h List.not_mem_nil
  taken _ := rfl

/-! ## Steps of a writer task -/

@[simp] theorem setQueue_self (s : Hal) (i : Nat) (c : Channel SensorsEvent) :
    (s.setQueue i c).queues i = c := Function.update_self _ _ _

theorem setQueue_of_ne (s : Hal) {i j : Nat} (h : j ≠ i) (c : Channel SensorsEvent) :
    (s.setQueue i c).queues j = s.queues j := Function.update_of_ne h _ _

@[simp] theorem setWriter_self (s : Hal) (i : Nat) (w : WriterAt) :
    (s.setWriter i w).writers i = w := Function.update_self _ _ _

/-- What holds of every queue after `i` was replaced. -/
theorem setQueue_forall {s : Hal} {i : Nat} {c : Channel SensorsEvent}
    {P : Nat → Channel SensorsEvent → Prop} (hi : P i c) (hne : ∀ j, j ≠ i → P j (s.queues j)) :
    ∀ j, P j ((s.setQueue i c).queues j) :=
  (Function.forall_update_iff s.queues P).mpr ⟨hi, hne⟩

/-- What holds of every task after task `i` has moved to `w`. -/
theorem setWriter_forall {s : Hal} {i : Nat} {w : WriterAt} {P : Nat → WriterAt → Prop} (hi : P i w)
    (hne : ∀ j, j ≠ i → P j (s.writers j)) : ∀ j, P j ((s.setWriter i w).writers j) :=
  (Function.forall_update_iff s.writers P).mpr ⟨hi, hne⟩

/-- A mutex is held by one thread only. -/
theorem Inv.writer_outside (h : Inv handles queueCount s) {i : Nat} (hm : s.mutex ≠ .writer i) :
    s.writers i = .outside := by
  by_contra hne
  exact hm ((h.writer_holds i).mp hne)

theorem Inv.not_scanning (h : Inv handles queueCount s) {i : Nat} (hw : s.writers i ≠ .outside) :
    s.poll ≠ .scanning := by
  intro hp
  have hm := h.poll_holds.mp hp
  rw [(h.writer_holds i).mp hw] at hm
  cases hm

/-- A step of a channel that changes its size only after the events were marked. -/
theorem Inv.setQueue (h : Inv handles queueCount s) {i : Nat} {c : Channel SensorsEvent}
    (hc : c.Inv SENSOR_EVENT_QUEUE_CAPACITY)
    (hsize : c.queue.mSize = s.sizeOf i ∨ ∃ a, s.writers i = .marked a)
    (hdeq : c.dequeued = (s.queues i).dequeued) : Inv handles queueCount (s.setQueue i c) := by
  have hsizes : ∀ j, (s.setQueue i c).sizeOf j = s.sizeOf j ∨ ∃ a, s.writers j = .marked a :=
    setQueue_forall (P := fun j c' => c'.queue.mSize = s.sizeOf j ∨ ∃ a, s.writers j = .marked a) hsize
      fun j _ => Or.inl rfl
  refine ⟨setQueue_forall (P := fun _ c' => c'.Inv SENSOR_EVENT_QUEUE_CAPACITY) hc
      fun j _ => h.channels j,
    h.next_lt, h.poll_holds, h.writer_holds, ?_, h.reads_le, h.max_pos, h.waiting,
    ?_, h.marked, h.told, h.idle, h.call, h.done,
    setQueue_forall (P := fun j c' => s.takenFrom j = c'.dequeued) ((h.taken i).trans hdeq.symm)
      fun j _ => h.taken j⟩
  · intro hp j hj hne
    rcases hsizes j with hs | ⟨a, ha⟩
    · rw [hs] at hne
      exact h.scanned hp j hj hne
    · exact absurd hp (h.not_scanning (i := j) (by rw [ha]; simp))
  · intro hp j hj
    rcases hsizes j with hs | ha
    · rw [hs]
      exact h.asleep hp j hj
    · exact Or.inr ha

/-- The mutex is free or held by task `i`: no other task is in its second critical
section. -/
theorem Inv.others_outside (h : Inv handles queueCount s) {i : Nat}
    (hheld : s.mutex = .nobody ∨ s.mutex = .writer i) : ∀ j, j ≠ i → s.writers j = .outside := by
  intro j hj
  refine h.writer_outside fun hw => ?_
  rcases hheld with hn | hi
  · rw [hn] at hw
    cases hw
  · rw [hi] at hw
    exact hj (Holder.writer.inj hw).symm

theorem Inv.not_scanning_of_held (h : Inv handles queueCount s) {i : Nat}
    (hheld : s.mutex = .nobody ∨ s.mutex = .writer i) : s.poll ≠ .scanning := by
  intro hscan
  have hpoll := h.poll_holds.mp hscan
  rcases hheld with hn | hi
  · rw [hn] at hpoll
    cases hpoll
  · rw [hi] at hpoll
    cases hpoll

/-- A task that holds or takes the mutex moves on, possibly waking `poll`. -/
theorem Inv.move (h : Inv handles queueCount s) {i : Nat} {w : WriterAt} {m : Holder} {p : PollAt}
    (hheld : s.mutex = .nobody ∨ s.mutex = .writer i)
    (hm : m = if w = .outside then .nobody else .writer i)
    (hp : p = s.poll ∨ s.poll = .blocked ∧ p = .woken)
    (hasleep : p = .blocked → s.sizeOf i = 0 ∨ ∃ a, w = .marked a)
    (hmarked : w = .marked true → s.waiting_for_data = true)
    (htold : ∀ a b, w = .told a b → a = true → b = true) :
    Inv handles queueCount { s.setWriter i w with mutex := m, poll := p } := by
  have hidle : p ≠ .scanning := by
    rcases hp with rfl | ⟨-, rfl⟩
    · exact h.not_scanning_of_held hheld
    · intro hw
      cases hw
  refine ⟨h.channels, h.next_lt, ⟨fun hs => absurd hs hidle, fun hs => ?_⟩,
    setWriter_forall (P := fun j w' => w' ≠ .outside ↔ m = .writer j) ?_ fun j hj => ?_,
    fun hs => absurd hs hidle, h.reads_le, fun hne => ?_, fun hb => ?_, fun hb => ?_,
    setWriter_forall (P := fun _ w' => w' = .marked true → s.waiting_for_data = true) hmarked
      fun j _ => h.marked j,
    setWriter_forall (P := fun _ w' => ∀ a b, w' = .told a b → a = true → b = true) htold
      fun j _ => h.told j,
    fun ho => ?_, h.call, h.done, h.taken⟩
  · change m = .poll at hs
    rw [hs] at hm
    split at hm <;> cases hm
  · rw [hm]
    by_cases hw : w = .outside
    · simp [hw]
    · simp [hw]
  · rw [h.others_outside hheld j hj, hm]
    split
    · simp
    · simp [Ne.symm hj]
  · refine h.max_pos fun ho => ?_
    rcases hp with rfl | ⟨hb, -⟩
    · exact hne ho
    · rw [hb] at ho
      cases ho
  · refine h.waiting ?_
    rcases hp with rfl | ⟨hb, -⟩
    · exact hb
    · exact Or.inl hb
  · change p = .blocked at hb
    refine setWriter_forall (P := fun j w' => j < queueCount → s.sizeOf j = 0 ∨ ∃ a, w' = .marked a)
      (fun _ => hasleep hb) fun j _ => ?_
    rcases hp with rfl | ⟨-, rfl⟩
    · exact h.asleep hb j
    · cases hb
  · refine h.idle ?_
    rcases hp with rfl | ⟨-, rfl⟩
    · exact ho
    · cases ho

/-- What a writer does outside its second critical section does not show. -/
theorem Inv.outsideStep (h : Inv handles queueCount s) {i : Nat} {step : ChannelStep SensorsEvent}
    {s' : Hal} (hs : s.outsideStep i step = some s') (hfit : (s.queues i).FitsAt step)
    (hkeep : ∀ c, (s.queues i).step step = some c →
      c.queue.mSize = s.sizeOf i ∧ c.dequeued = (s.queues i).dequeued) :
    Inv handles queueCount s' := by
  unfold Hal.outsideStep at hs
  split at hs
  case isTrue =>
    obtain ⟨c, hc, rfl⟩ := Option.map_eq_some_iff.mp hs
    obtain ⟨hsize, hdeq⟩ := hkeep c hc
    exact h.setQueue (Channel.step_inv (h.channels i) hc hfit) (Or.inl hsize) hdeq
  case isFalse => cases hs

end Hal

/-- The sums of a queue of 36 fit. -/
theorem Channel.Inv.fits {c : Channel SensorsEvent} (h : c.Inv SENSOR_EVENT_QUEUE_CAPACITY) :
    c.queue.Fits SENSOR_EVENT_QUEUE_CAPACITY := by
  have hcap : c.queue.mCapacity = 36 := h.capacity_eq
  have hlt := h.valid.start_lt
  have hle := h.valid.size_le
  unfold SensorEventQueue.Fits
  unfold SENSOR_EVENT_QUEUE_CAPACITY INT_MAX
  rw [hcap] at hlt hle ⊢
  omega

/-- Only `markAsWritten` and `dequeue` change the size. -/
theorem Channel.acquire_keeps {α : Type} (c : Channel α) (n : Int) :
    (c.acquire n).queue = c.queue ∧ (c.acquire n).dequeued = c.dequeued := by
  unfold Channel.acquire
  split
  · exact ⟨rfl, rfl⟩
  · split <;> exact ⟨rfl, rfl⟩

namespace Hal

variable {handles : GlobalHandles} {queueCount : Nat} {s : Hal}

theorem Inv.lock (h : Inv handles queueCount s) {i : Nat} (hm : s.mutex = .nobody)
    (hw : s.writers i = .outside) (hi : i < queueCount) (k : Nat) :
    Inv handles queueCount { s.setWriter i (.locked k) with mutex := .writer i } := by
  refine h.move (w := .locked k) (Or.inl hm) rfl (Or.inl rfl) (fun hb => ?_) (fun hw => ?_) fun _ _ hw => ?_
  · rcases h.asleep hb i hi with hz | ⟨a, ha⟩
    · exact Or.inl hz
    · rw [hw] at ha
      cases ha
  · cases hw
  · cases hw

theorem Inv.mark (h : Inv handles queueCount s) {i k : Nat} {c : Channel SensorsEvent}
    (hw : s.writers i = .locked k) (hc : (s.queues i).step (.mark k) = some c) :
    Inv handles queueCount ((s.setQueue i c).setWriter i (.marked (s.poll = .blocked))) := by
  have hheld : s.mutex = .writer i := (h.writer_holds i).mp (by rw [hw]; simp)
  have hmoved : Inv handles queueCount (s.setWriter i (.marked (s.poll = .blocked))) := by
    have hm := h.move (w := .marked (s.poll = .blocked)) (Or.inr hheld) hheld (Or.inl rfl)
      (fun _ => Or.inr ⟨_, rfl⟩) (fun hb => ?_) (fun _ _ hw => by cases hw)
    · exact hm
    · have hb := WriterAt.marked.inj hb
      exact h.waiting (Or.inl (of_decide_eq_true hb))
  obtain ⟨r, -, -, hmark⟩ := Channel.step_mark hc
  refine hmoved.setQueue (Channel.step_inv (h.channels i) hc trivial) (Or.inr ⟨_, setWriter_self _ _ _⟩) ?_
  rw [hmark]
  rfl

theorem Inv.tell (h : Inv handles queueCount s) {i : Nat} {a : Bool} (hw : s.writers i = .marked a) :
    Inv handles queueCount
      (if s.waiting_for_data then (s.setWriter i (.told a s.waiting_for_data)).broadcast
        else s.setWriter i (.told a s.waiting_for_data)) := by
  have hheld : s.mutex = .writer i := (h.writer_holds i).mp (by rw [hw]; simp)
  have htold : ∀ a' b, WriterAt.told a s.waiting_for_data = .told a' b → a' = true → b = true := by
    intro a' b heq ha'
    obtain ⟨rfl, rfl⟩ := WriterAt.told.inj heq
    exact h.marked i (by rw [hw, ha'])
  cases hwait : s.waiting_for_data with
  | true =>
    rw [hwait] at htold
    refine h.move (w := .told a true) (Or.inr hheld) hheld ?_ (fun hb => ?_) (fun hw => by cases hw) htold
    · show (if s.poll = .blocked then PollAt.woken else s.poll) = s.poll ∨ _
      by_cases hb : s.poll = .blocked
      · exact Or.inr ⟨hb, if_pos hb⟩
      · exact Or.inl (if_neg hb)
    · change (if s.poll = .blocked then PollAt.woken else s.poll) = .blocked at hb
      split at hb
      case isTrue => cases hb
      case isFalse hne => exact absurd hb hne
  | false =>
    rw [hwait] at htold
    refine h.move (w := .told a false) (Or.inr hheld) hheld (Or.inl rfl) (fun hb => ?_)
      (fun hw => by cases hw) htold
    rw [h.waiting (Or.inl hb)] at hwait
    cases hwait

theorem Inv.unlock (h : Inv handles queueCount s) {i : Nat} (hi : i < queueCount) {a b : Bool}
    (hw : s.writers i = .told a b) :
    Inv handles queueCount { s.setWriter i .outside with mutex := .nobody } := by
  have hheld : s.mutex = .writer i := (h.writer_holds i).mp (by rw [hw]; simp)
  refine h.move (w := .outside) (Or.inr hheld) rfl (Or.inl rfl) (fun hb => ?_) (fun hw => by cases hw)
    (fun _ _ hw => by cases hw)
  rcases h.asleep hb i hi with hz | ⟨a, ha⟩
  · exact Or.inl hz
  · rw [hw] at ha
    cases ha

/-- **Writer steps.** -/
theorem Inv.writerStep (h : Inv handles queueCount s) {i : Nat} (hi : i < queueCount) {w : WriterStep}
    {s' : Hal} (hs : s.writerStep i w = some s') : Inv handles queueCount s' := by
  cases w with
  | acquire =>
    rw [Hal.writerStep] at hs
    split at hs
    case isTrue =>
      refine h.outsideStep hs (fun _ => (h.channels i).fits) fun c hc => ?_
      obtain ⟨-, rfl⟩ := Channel.step_acquire hc
      obtain ⟨hq, hd⟩ := Channel.acquire_keeps (s.queues i) SENSOR_EVENT_QUEUE_CAPACITY
      exact ⟨by rw [hq]; rfl, hd⟩
    case isFalse => cases hs
  | store j e =>
    refine h.outsideStep hs trivial fun c hc => ?_
    obtain ⟨r, -, -, rfl⟩ := Channel.step_store hc
    exact ⟨rfl, rfl⟩
  | giveUp =>
    refine h.outsideStep hs trivial fun c hc => ?_
    obtain rfl := Option.some.inj hc
    exact ⟨rfl, rfl⟩
  | lock k =>
    rw [Hal.writerStep] at hs
    split at hs
    case isTrue hk =>
      obtain rfl := Option.some.inj hs
      exact h.lock hk.1 hk.2.1 hi k
    case isFalse => cases hs
  | mark =>
    cases hw : s.writers i with
    | locked k =>
      simp only [Hal.writerStep, hw] at hs
      obtain ⟨c, hc, rfl⟩ := Option.map_eq_some_iff.mp hs
      exact h.mark hw hc
    | _ => simp [Hal.writerStep, hw] at hs
  | tell =>
    cases hw : s.writers i with
    | marked a =>
      simp only [Hal.writerStep, hw] at hs
      obtain rfl := Option.some.inj hs
      exact h.tell hw
    | _ => simp [Hal.writerStep, hw] at hs
  | unlock =>
    cases hw : s.writers i with
    | told a b =>
      simp only [Hal.writerStep, hw] at hs
      obtain rfl := Option.some.inj hs
      exact h.unlock hi hw
    | _ => simp [Hal.writerStep, hw] at hs

/-! ## Steps of poll -/

theorem Inv.all_outside (h : Inv handles queueCount s) (hm : s.mutex = .nobody ∨ s.mutex = .poll)
    (i : Nat) : s.writers i = .outside := by
  refine h.writer_outside fun hw => ?_
  rcases hm with hn | hp
  · rw [hn] at hw
    cases hw
  · rw [hp] at hw
    cases hw

theorem Inv.miss (h : Inv handles queueCount s) (hp : s.poll = .scanning)
    (hzero : s.sizeOf s.nextReadIndex = 0) :
    Inv handles queueCount { s with
      nextReadIndex := (s.nextReadIndex + 1) % queueCount
      call := { s.call with empties := s.call.empties + 1 } } := by
  have hpos := h.next_lt
  refine ⟨h.channels, Nat.mod_lt _ (by omega), h.poll_holds, h.writer_holds, ?_, h.reads_le, h.max_pos,
    h.waiting, h.asleep, h.marked, h.told, h.idle, ⟨h.call.1, h.call.2⟩, h.done, h.taken⟩
  intro _ i hi hne
  have hother : i ≠ s.nextReadIndex := by
    rintro rfl
    exact hne hzero
  have hstep := Ring.ahead_step h.next_lt hi hother
  have hold := h.scanned hp i hi hne
  show Ring.ahead queueCount (Ring.slot queueCount s.nextReadIndex 1) i + (s.call.empties + 1) < _
  omega

theorem Inv.hit (h : Inv handles queueCount s) (hp : s.poll = .scanning)
    (hread : s.call.eventsRead < s.call.maxReads) {j : Int}
    (hj : (s.queues s.nextReadIndex).queue.peek = some j) :
    Inv handles queueCount { s.setQueue s.nextReadIndex (s.queues s.nextReadIndex).dequeue with
      nextReadIndex := (s.nextReadIndex + 1) % queueCount
      call := s.call.take handles s.nextReadIndex
        ((s.queues s.nextReadIndex).queue.mData j) } := by
  have hpos := h.next_lt
  have hblocked : s.poll ≠ .blocked := by
    rw [hp]
    intro hb
    cases hb
  refine ⟨setQueue_forall (P := fun _ c => c.Inv SENSOR_EVENT_QUEUE_CAPACITY)
      (h.channels _).dequeue fun j _ => h.channels j,
    Nat.mod_lt _ (by omega), h.poll_holds, h.writer_holds, fun _ i hi _ => ?_, ?_, h.max_pos,
    h.waiting, fun hb => absurd hb hblocked, h.marked, h.told, fun ho => ?_,
    PollCall.take_sound h.call hread _ _, h.done, fun i => ?_⟩
  · exact Ring.ahead_lt hi
  · unfold PollCall.take
    dsimp only
    split <;> omega
  · exact absurd (hp.symm.trans ho) (by simp)
  · show s.returned.flatMap (fun call => call.takenFrom i) ++ (s.call.take handles _ _).takenFrom i =
      ((s.setQueue s.nextReadIndex (s.queues s.nextReadIndex).dequeue).queues i).dequeued
    have htaken := h.taken i
    unfold Hal.takenFrom at htaken
    rw [PollCall.take_takenFrom, ← List.append_assoc, htaken]
    by_cases hi : i = s.nextReadIndex
    · rw [hi, setQueue_self, if_pos rfl, Channel.dequeue, hj]
      rfl
    · rw [setQueue_of_ne s hi, if_neg (Ne.symm hi), List.append_nil]

theorem Inv.iterate (h : Inv handles queueCount s) (hp : s.poll = .scanning)
    (hagain : s.again queueCount = true) : Inv handles queueCount (s.iterate handles queueCount) := by
  have hread : s.call.eventsRead < s.call.maxReads := by
    simp [again] at hagain
    exact hagain.2
  unfold Hal.iterate
  dsimp only
  cases hpeek : (s.queues s.nextReadIndex).queue.peek with
  | none =>
    refine h.miss hp ?_
    unfold SensorEventQueue.peek at hpeek
    split at hpeek
    case isTrue hz => exact hz
    case isFalse => cases hpeek
  | some j => exact h.hit hp hread hpeek

/-- The inner loop ends without an event only if it has counted every queue. -/
theorem Inv.all_empty (h : Inv handles queueCount s) (hp : s.poll = .scanning)
    (hagain : s.again queueCount = false) (hread : s.call.eventsRead = 0) :
    ∀ i < queueCount, s.sizeOf i = 0 := by
  intro i hi
  by_contra hne
  have hlt := h.scanned hp i hi hne
  have hmax := h.max_pos (by rw [hp]; simp)
  simp [again, hread] at hagain
  omega

theorem Inv.start (h : Inv handles queueCount s) (hp : s.poll = .outside) (hm : s.mutex = .nobody)
    {maxReads : Nat} (hmax : 1 ≤ maxReads) (data : Nat → SensorsEvent) :
    Inv handles queueCount
      { s with poll := .scanning, mutex := .poll, call := .begin data maxReads } := by
  have hout := h.all_outside (Or.inl hm)
  refine ⟨h.channels, h.next_lt, by simp, fun i => by simp [hout i], fun _ i hi _ => Ring.ahead_lt hi,
    Nat.zero_le _, fun _ => hmax, fun hw => ?_, fun hb => (by cases hb), h.marked, h.told,
    fun ho => (by cases ho), PollCall.begin_sound handles data maxReads, h.done, fun i => ?_⟩
  · rcases hw with hw | hw <;> cases hw
  · have hnone : s.call.takenFrom i = [] := by
      rw [PollCall.takenFrom, h.idle hp]
      rfl
    have htaken := h.taken i
    unfold Hal.takenFrom at htaken ⊢
    rw [hnone] at htaken
    exact htaken

theorem Inv.wait (h : Inv handles queueCount s) (hp : s.poll = .scanning)
    (hagain : s.again queueCount = false) (hread : s.call.eventsRead = 0) :
    Inv handles queueCount { s with poll := .blocked, mutex := .nobody, waiting_for_data := true } := by
  have hout := h.all_outside (Or.inr (h.poll_holds.mp hp))
  have hmax := h.max_pos (by rw [hp]; simp)
  exact ⟨h.channels, h.next_lt, by simp, fun i => by simp [hout i], fun hs => (by cases hs), h.reads_le,
    fun _ => hmax, fun _ => rfl, fun _ i hi => Or.inl (h.all_empty hp hagain hread i hi), fun _ _ => rfl,
    h.told, fun ho => (by cases ho), h.call, h.done, h.taken⟩

theorem Inv.wake (h : Inv handles queueCount s) (hp : s.poll = .blocked) :
    Inv handles queueCount { s with poll := .woken } := by
  have hm : s.mutex ≠ .poll := fun hm => by
    have := h.poll_holds.mpr hm
    rw [hp] at this
    cases this
  exact ⟨h.channels, h.next_lt, ⟨fun hs => (by cases hs), fun hs => absurd hs hm⟩, h.writer_holds,
    fun hs => (by cases hs), h.reads_le, fun _ => h.max_pos (by rw [hp]; simp),
    fun _ => h.waiting (Or.inl hp), fun hb => (by cases hb), h.marked, h.told, fun ho => (by cases ho), h.call,
    h.done, h.taken⟩

theorem Inv.resume (h : Inv handles queueCount s) (hp : s.poll = .woken) (hm : s.mutex = .nobody) :
    Inv handles queueCount { s with
      poll := .scanning, mutex := .poll, waiting_for_data := false
      call := { s.call with empties := 0 } } := by
  have hout := h.all_outside (Or.inl hm)
  refine ⟨h.channels, h.next_lt, by simp, fun i => by simp [hout i], fun _ i hi _ => Ring.ahead_lt hi,
    h.reads_le, fun _ => h.max_pos (by rw [hp]; simp), fun hw => ?_, fun hb => (by cases hb), fun i hi => ?_,
    h.told, fun ho => (by cases ho), ⟨h.call.1, h.call.2⟩, h.done, h.taken⟩
  · rcases hw with hw | hw <;> cases hw
  · rw [hout i] at hi
    cases hi

theorem Inv.ret (h : Inv handles queueCount s) (hp : s.poll = .scanning) (hread : s.call.eventsRead ≠ 0) :
    Inv handles queueCount { s with
      poll := .outside, mutex := .nobody
      returned := s.returned ++ [s.call], call := .begin s.call.data 0 } := by
  have hout := h.all_outside (Or.inr (h.poll_holds.mp hp))
  refine ⟨h.channels, h.next_lt, by simp, fun i => by simp [hout i], fun hs => (by cases hs), Nat.zero_le _,
    fun hne => absurd rfl hne, fun hw => ?_, fun hb => (by cases hb), fun i hi => ?_, h.told, fun _ => rfl,
    PollCall.begin_sound _ _ _, fun c hc => ?_, fun i => ?_⟩
  · rcases hw with hw | hw <;> cases hw
  · rw [hout i] at hi
    cases hi
  · rcases List.mem_append.mp hc with hc | hc
    · exact h.done c hc
    · obtain rfl := List.mem_singleton.mp hc
      exact ⟨h.call, by omega, h.reads_le⟩
  · rw [← h.taken i]
    unfold Hal.takenFrom
    rw [List.flatMap_append, List.flatMap_singleton]
    exact List.append_nil _

/-- **Steps of poll.** -/
theorem Inv.pollStep (h : Inv handles queueCount s) {p : PollStep} {s' : Hal}
    (hs : s.pollStep handles queueCount p = some s') : Inv handles queueCount s' := by
  cases p with
  | start maxReads data =>
    obtain ⟨hc, hs⟩ := Option.ite_none_right_eq_some.mp hs
    obtain rfl := Option.some.inj hs
    exact h.start hc.1 hc.2.1 hc.2.2 data
  | iterate =>
    obtain ⟨hc, hs⟩ := Option.ite_none_right_eq_some.mp hs
    obtain rfl := Option.some.inj hs
    exact h.iterate hc.1 hc.2
  | wait =>
    obtain ⟨hc, hs⟩ := Option.ite_none_right_eq_some.mp hs
    obtain rfl := Option.some.inj hs
    exact h.wait hc.1 hc.2.1 hc.2.2
  | wake =>
    obtain ⟨hc, hs⟩ := Option.ite_none_right_eq_some.mp hs
    obtain rfl := Option.some.inj hs
    exact h.wake hc
  | resume =>
    obtain ⟨hc, hs⟩ := Option.ite_none_right_eq_some.mp hs
    obtain rfl := Option.some.inj hs
    exact h.resume hc.1 hc.2
  | ret =>
    obtain ⟨hc, hs⟩ := Option.ite_none_right_eq_some.mp hs
    obtain rfl := Option.some.inj hs
    exact h.ret hc.1 hc.2.2

/-! ## Runs -/

/-- The states that `poll` and the writer tasks of `queueCount` queues can reach. -/
abbrev Run (handles : GlobalHandles) (queueCount : Nat) : Hal → Prop :=
  Reachable (fun s => ∃ cells data, s = init cells data)
    (fun s i s' => s.step handles queueCount i = some s') (fun _ _ => True)

theorem run_inv (hq : 1 ≤ queueCount) (h : Run handles queueCount s) : Inv handles queueCount s := by
  refine h.invariant ?_ ?_
  · rintro s ⟨cells, data, rfl⟩
    exact init_inv hq cells data
  · intro s i s' hinv _ hs
    cases i with
    | writer i w =>
      obtain ⟨hi, hs⟩ := Option.ite_none_right_eq_some.mp hs
      exact hinv.writerStep hi hs
    | poll p => exact hinv.pollStep hs

/-- What the framework relies on. -/
structure PollSafe (handles : GlobalHandles) (queueCount : Nat) (s : Hal) : Prop where
  /-- `poll` starts to wait only when every queue is empty. -/
  waits_on_nothing : (s.pollStep handles queueCount .wait).isSome = true →
    ∀ i < queueCount, s.sizeOf i = 0
  /-- While `poll` is blocked, data is there only until its writer has tested the flag. -/
  no_lost_wakeup : s.poll = .blocked → ∀ i < queueCount,
    s.sizeOf i = 0 ∨ s.mutex = .writer i ∧ ∃ a, s.writers i = .marked a
  /-- The test is true for events that were marked while `poll` was blocked. -/
  broadcast_first : ∀ i asleep broadcast, s.writers i = .told asleep broadcast → asleep = true →
    broadcast = true
  returns : ∀ call ∈ s.returned, 1 ≤ call.eventsRead ∧ call.eventsRead ≤ call.maxReads ∧
    (List.range call.eventsRead).map call.data = call.taken.filterMap (deliver handles)
  slots_lt : ∀ call ∈ s.call :: s.returned, ∀ n ∈ call.slots, n < call.maxReads
  /-- What the calls took from a queue, followed by what it holds, is what was put in. -/
  fifo : ∀ i, s.takenFrom i ++ (s.queues i).queue.contents = (s.queues i).written

/-- **No data is slept on or lost.** -/
theorem poll_sound (handles : GlobalHandles) (queueCount : Nat) (hq : 1 ≤ queueCount) (s : Hal)
    (h : Run handles queueCount s) : PollSafe handles queueCount s := by
  have hinv := run_inv hq h
  refine ⟨fun hw => ?_, fun hb i hi => ?_, hinv.told, fun call hc => ?_, fun call hc => ?_, fun i => ?_⟩
  · obtain ⟨s', hw⟩ := Option.isSome_iff_exists.mp hw
    obtain ⟨hc, -⟩ := Option.ite_none_right_eq_some.mp hw
    exact hinv.all_empty hc.1 hc.2.1 hc.2.2
  · rcases hinv.asleep hb i hi with hz | ⟨a, ha⟩
    · exact Or.inl hz
    · exact Or.inr ⟨(hinv.writer_holds i).mp (by rw [ha]; simp), a, ha⟩
  · obtain ⟨hs, hpos, hle⟩ := hinv.done call hc
    exact ⟨hpos, hle, hs.delivered⟩
  · rcases List.mem_cons.mp hc with rfl | hc
    · exact hinv.call.slots_lt
    · exact (hinv.done call hc).1.slots_lt
  · rw [hinv.taken i]
    exact (hinv.channels i).fifo

/-- `poll` finds two empty queues and waits; the second task delivers an event. -/
def wakeRun : List Step :=
  [.poll (.start 1 fun _ => ⟨0, 0, 0, []⟩), .poll .iterate, .poll .iterate, .poll .wait,
    .writer 1 .acquire, .writer 1 (.store 0 ⟨5, 1, 0, []⟩), .writer 1 (.lock 1), .writer 1 .mark,
    .writer 1 .tell, .writer 1 .unlock, .poll .resume, .poll .iterate, .poll .iterate, .poll .ret]

def wakeEnd : Option Hal :=
  wakeRun.foldlM (fun s i => if True then s.step (fun _ => some 9) 2 i else none)
    (init (fun _ _ => ⟨0, 0, 0, []⟩) fun _ => ⟨0, 0, 0, []⟩)

theorem poll_sound_wake :
    wakeEnd.map (fun s => s.returned.map fun call => call.eventsRead) = some [1] ∧
      ∀ s ∈ wakeEnd, PollSafe (fun _ => some 9) 2 s :=
  ⟨by decide, fun s hs => poll_sound _ 2 (by decide) s
    (reachable_foldlM wakeRun (.start ⟨_, _, rfl⟩) hs)⟩

end Hal

/-! ## What goes upstream

`poll` drops an event whose `sensor` field is -1 after the handle was mapped.  For a
META_DATA event the mapped handle is in another field. -/

/-- The field that holds the handle: the inner one of a META_DATA event. -/
def SensorsEvent.handle (e : SensorsEvent) : Int :=
  if e.type = SENSOR_TYPE_META_DATA then e.metaSensor else e.sensor

/-- Only events of registered sensors are returned, under their global handle. -/
structure PollCall.Clean (handles : GlobalHandles) (call : PollCall) : Prop where
  returned : (List.range call.eventsRead).map call.data = call.taken.filterMap (deliver handles)
  registered : ∀ t ∈ call.taken, ∀ e, deliver handles t = some e →
    handles ⟨t.1, t.2.handle⟩ = some e.handle
  dropped : ∀ t ∈ call.taken, handles ⟨t.1, t.2.handle⟩ = none → deliver handles t = none

section
variable {handles : GlobalHandles} {t : Nat × SensorsEvent} {e : SensorsEvent}

theorem remap_type (src : SensorsEvent) (i : Nat) :
    (copyEventRemapHandle handles src i).type = src.type := by
  unfold copyEventRemapHandle
  split <;> rfl

theorem remap_handle (src : SensorsEvent) (i : Nat) :
    (copyEventRemapHandle handles src i).handle = getGlobalHandle handles ⟨i, src.handle⟩ := by
  rw [SensorsEvent.handle, remap_type]
  unfold copyEventRemapHandle SensorsEvent.handle
  split <;> rfl

/-- The `sensor` field that the drop test reads. -/
theorem remap_sensor (src : SensorsEvent) (i : Nat) :
    (copyEventRemapHandle handles src i).sensor =
      if src.type = SENSOR_TYPE_META_DATA then src.sensor
      else getGlobalHandle handles ⟨i, src.handle⟩ := by
  unfold copyEventRemapHandle SensorsEvent.handle
  split <;> rfl

theorem deliver_some (h : deliver handles t = some e) :
    e = copyEventRemapHandle handles t.2 t.1 ∧ e.sensor ≠ -1 := by
  simp only [deliver] at h
  split at h
  · cases h
  · cases h
    exact ⟨rfl, by assumption⟩

theorem deliver_none_iff : deliver handles t = none ↔
    (copyEventRemapHandle handles t.2 t.1).sensor = -1 := by
  simp [deliver]

/-- An event of a sensor that is not registered is dropped, unless it is a META_DATA event
with a `sensor` field other than -1. -/
theorem dropped_iff (hnone : handles ⟨t.1, t.2.handle⟩ = none) : deliver handles t = none ↔
    (t.2.type = SENSOR_TYPE_META_DATA → t.2.sensor = -1) := by
  rw [deliver_none_iff, remap_sensor]
  by_cases hmeta : t.2.type = SENSOR_TYPE_META_DATA
  · simp [hmeta]
  · simp [hmeta, getGlobalHandle, hnone]

theorem registered_of_dropped (hdrop : handles ⟨t.1, t.2.handle⟩ = none → deliver handles t = none)
    (h : deliver handles t = some e) : handles ⟨t.1, t.2.handle⟩ = some e.handle := by
  cases hreg : handles ⟨t.1, t.2.handle⟩ with
  | none =>
    rw [hdrop hreg] at h
    cases h
  | some g =>
    rw [(deliver_some h).1, remap_handle, getGlobalHandle, hreg]
    rfl

end

/-- A META_DATA event for a sensor that is not registered, with the `sensor` field 0 that
such events must have, or any other than -1. -/
def Unfiltered (handles : GlobalHandles) (t : Nat × SensorsEvent) : Prop :=
  t.2.type = SENSOR_TYPE_META_DATA ∧ handles ⟨t.1, t.2.metaSensor⟩ = none ∧ t.2.sensor ≠ -1

/-- **When a call of `poll` passes on nothing corrupted**: it has met no META_DATA event
that the drop test does not see. -/
theorem poll_clean_iff (handles : GlobalHandles) (queueCount : Nat) (hq : 1 ≤ queueCount) (s : Hal)
    (h : Hal.Run handles queueCount s) (call : PollCall) (hcall : call ∈ s.returned) :
    call.Clean handles ↔ ∀ t ∈ call.taken, ¬ Unfiltered handles t := by
  have hmeta : ∀ t : Nat × SensorsEvent, t.2.type = SENSOR_TYPE_META_DATA →
      t.2.handle = t.2.metaSensor := by
    intro t ht
    rw [SensorsEvent.handle, if_pos ht]
  constructor
  · rintro hclean t ht ⟨htype, hnone, hsensor⟩
    rw [← hmeta t htype] at hnone
    exact hsensor ((dropped_iff hnone).mp (hclean.dropped t ht hnone) htype)
  · intro hseen
    have hdropped : ∀ t ∈ call.taken, handles ⟨t.1, t.2.handle⟩ = none →
        deliver handles t = none := by
      intro t ht hnone
      rw [dropped_iff hnone]
      intro htype
      by_contra hsensor
      rw [hmeta t htype] at hnone
      exact hseen t ht ⟨htype, hnone, hsensor⟩
    exact ⟨((Hal.run_inv hq h).done call hcall).1.delivered,
      fun t ht e he => registered_of_dropped (hdropped t ht) he, hdropped⟩

/-- One queue; the task stores `event`, and then `poll` takes it together with an event of
sensor 5, the only one that is registered. -/
def eventRun (event : SensorsEvent) : List Hal.Step :=
  [.writer 0 .acquire, .writer 0 (.store 0 event), .writer 0 (.store 1 ⟨5, 1, 0, []⟩),
    .writer 0 (.lock 2), .writer 0 .mark, .writer 0 .tell, .writer 0 .unlock,
    .poll (.start 4 fun _ => ⟨0, 0, 0, []⟩), .poll .iterate, .poll .iterate, .poll .iterate, .poll .ret]

def onlyFive : GlobalHandles := fun f => if f = ⟨0, 5⟩ then some 1 else none

def eventEnd (event : SensorsEvent) : Option Hal :=
  (eventRun event).foldlM (fun s i => if True then s.step onlyFive 1 i else none)
    (.init (fun _ _ => ⟨0, 0, 0, []⟩) fun _ => ⟨0, 0, 0, []⟩)

theorem eventEnd_run {event : SensorsEvent} {s : Hal} (h : s ∈ eventEnd event) :
    Hal.Run onlyFive 1 s :=
  reachable_foldlM (eventRun event) (.start ⟨_, _, rfl⟩) h

/-- What the finished calls of the run have taken. -/
def takenBy (o : Option Hal) : Option (List (List (Nat × SensorsEvent))) :=
  o.map fun s => s.returned.map PollCall.taken

theorem takenBy_one {o : Option Hal} {l : List (Nat × SensorsEvent)} (h : takenBy o = some [l]) :
    ∃ s call, s ∈ o ∧ s.returned = [call] ∧ call.taken = l := by
  obtain ⟨s, hs, hmap⟩ := Option.map_eq_some_iff.mp h
  obtain ⟨call, hcall, htaken⟩ := List.map_eq_singleton_iff.mp hmap
  exact ⟨s, call, hs, hcall, htaken⟩

theorem poll_clean_registered_meta : ∃ s call, s ∈ eventEnd ⟨0, 0, 5, []⟩ ∧ s.returned = [call] ∧
    call.taken = [(0, ⟨0, 0, 5, []⟩), (0, ⟨5, 1, 0, []⟩)] ∧ call.Clean onlyFive := by
  obtain ⟨s, call, hs, hcall, htaken⟩ : ∃ s call, s ∈ eventEnd ⟨0, 0, 5, []⟩ ∧
      s.returned = [call] ∧ call.taken = [(0, ⟨0, 0, 5, []⟩), (0, ⟨5, 1, 0, []⟩)] :=
    takenBy_one (by decide)
  refine ⟨s, call, hs, hcall, htaken, ?_⟩
  refine (poll_clean_iff onlyFive 1 (by decide) s (eventEnd_run hs) call (by simp [hcall])).mpr ?_
  simp [htaken, Unfiltered, onlyFive, SENSOR_TYPE_META_DATA]

/-- A META_DATA event for sensor 99, which is not registered, is returned with -1 for it. -/
theorem poll_returns_corrupted : ¬ ∀ (handles : GlobalHandles) (queueCount : Nat) (s : Hal),
    1 ≤ queueCount → Hal.Run handles queueCount s → ∀ call ∈ s.returned, call.Clean handles := by
  intro h
  obtain ⟨s, call, hs, hcall, htaken⟩ : ∃ s call, s ∈ eventEnd ⟨0, 0, 99, []⟩ ∧
      s.returned = [call] ∧ call.taken = [(0, ⟨0, 0, 99, []⟩), (0, ⟨5, 1, 0, []⟩)] :=
    takenBy_one (by decide)
  have hclean := h onlyFive 1 s (by decide) (eventEnd_run hs) call (by simp [hcall])
  have hdropped := hclean.dropped (0, ⟨0, 0, 99, []⟩) (by simp [htaken]) (by decide)
  exact absurd hdropped (by decide)

end MochaHal.Sensors
