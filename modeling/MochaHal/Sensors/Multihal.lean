import MochaHal.Sensors.EventQueue

/-! `sensors/multihal.cpp`: the handles of the sub-HALs' sensors, the writer tasks
and `poll`.  The tasks and `poll` share one mutex; a step is what one thread does
between two points at which another may run, so the critical sections are spelled
out where the order inside them matters. -/

namespace MochaHal.Sensors

/-! ## Handles and events -/

structure FullHandle where
  moduleIndex : Int
  localHandle : Int
  deriving DecidableEq, Repr

/-- `operator<`, by which `full_to_global` tells its keys apart. -/
def FullHandle.lt (h that : FullHandle) : Bool :=
  if h.moduleIndex < that.moduleIndex then true
  else if h.moduleIndex > that.moduleIndex then false
  else decide (h.localHandle < that.localHandle)

theorem FullHandle.lt_iff {h that : FullHandle} : h.lt that ↔
    h.moduleIndex < that.moduleIndex ∨ h.moduleIndex = that.moduleIndex ∧ h.localHandle < that.localHandle := by
  unfold FullHandle.lt
  split
  · simp [*]
  · split
    · simp
      omega
    · simp
      omega

/-- The order is a strict one, and two handles of which none is less are the same: a
`std::map` over it is a function of the handle. -/
theorem FullHandle.lt_order : (∀ h : FullHandle, ¬ h.lt h) ∧ (∀ a b c : FullHandle, a.lt b → b.lt c → a.lt c) ∧
    ∀ a b : FullHandle, ¬ a.lt b → ¬ b.lt a → a = b := by
  refine ⟨fun h => ?_, fun a b c => ?_, fun a b hab hba => ?_⟩
  · rw [FullHandle.lt_iff]
    omega
  · rw [FullHandle.lt_iff, FullHandle.lt_iff, FullHandle.lt_iff]
    omega
  · rw [FullHandle.lt_iff] at hab hba
    obtain ⟨m, l⟩ := a
    obtain ⟨m', l'⟩ := b
    dsimp only at hab hba
    obtain rfl : m = m' := by omega
    obtain rfl : l = l' := by omega
    rfl

/-- `full_to_global`. -/
abbrev GlobalHandles := FullHandle → Option Int

/-- The fields that the HAL reads; `metaSensor` is `meta_data.sensor` and `rest` are
the other words of the event. -/
structure SensorsEvent where
  sensor : Int
  type : Int
  metaSensor : Int
  rest : List (BitVec 32)
  deriving DecidableEq, Repr

def SENSOR_TYPE_META_DATA : Int := 0

def getGlobalHandle (handles : GlobalHandles) (h : FullHandle) : Int := (handles h).getD (-1)

def copyEventRemapHandle (handles : GlobalHandles) (src : SensorsEvent) (subIndex : Nat) :
    SensorsEvent :=
  if src.type = SENSOR_TYPE_META_DATA then
    { src with metaSensor := getGlobalHandle handles ⟨subIndex, src.metaSensor⟩ }
  else { src with sensor := getGlobalHandle handles ⟨subIndex, src.sensor⟩ }

/-- The event as `poll` passes it on, unless it is dropped. -/
def deliver (handles : GlobalHandles) (t : Nat × SensorsEvent) : Option SensorsEvent :=
  let event := copyEventRemapHandle handles t.2 t.1
  if event.sensor = -1 then none else some event

/-! ## Threads -/

def SENSOR_EVENT_QUEUE_CAPACITY : Int := 36

/-- Who holds `queue_mutex`. -/
inductive Holder
  | nobody
  | poll
  | writer (i : Nat)
  deriving DecidableEq, Repr

/-- A writer task is outside its second critical section, or in it: about to call
`markAsWritten(k)`, past it, or past the test of `waiting_for_data`.  `asleep` says
whether `poll` was blocked when the events were marked, `broadcast` whether the
test was true. -/
inductive WriterAt
  | outside
  | locked (k : Nat)
  | marked (asleep : Bool)
  | told (asleep broadcast : Bool)
  deriving DecidableEq, Repr

/-- `poll` is not running, in its loops, blocked in `pthread_cond_wait`, or woken
there and about to take the mutex again. -/
inductive PollAt
  | outside
  | scanning
  | blocked
  | woken
  deriving DecidableEq, Repr

/-- The variables of a call of `poll`, with the slots of `data` it has written and
the events it has taken, each with the index of its queue. -/
structure PollCall where
  data : Nat → SensorsEvent
  maxReads : Nat
  empties : Nat
  eventsRead : Nat
  slots : List Nat
  taken : List (Nat × SensorsEvent)

/-- What the call has taken from queue `i`. -/
def PollCall.takenFrom (call : PollCall) (i : Nat) : List SensorsEvent :=
  call.taken.filterMap fun t => if t.1 = i then some t.2 else none

def PollCall.begin (data : Nat → SensorsEvent) (maxReads : Nat) : PollCall :=
  ⟨data, maxReads, 0, 0, [], []⟩

/-- The call after a round that found `src` in queue `i`. -/
def PollCall.take (handles : GlobalHandles) (call : PollCall) (i : Nat) (src : SensorsEvent) :
    PollCall :=
  let event := copyEventRemapHandle handles src i
  { call with
    empties := 0
    data := Function.update call.data call.eventsRead event
    eventsRead := if event.sensor = -1 then call.eventsRead else call.eventsRead + 1
    slots := call.slots ++ [call.eventsRead]
    taken := call.taken ++ [(i, src)] }

/-- The queues, the writer tasks and `poll`; `returned` are its finished calls. -/
structure Hal where
  queues : Nat → Channel SensorsEvent
  writers : Nat → WriterAt
  mutex : Holder
  waiting_for_data : Bool
  nextReadIndex : Nat
  poll : PollAt
  call : PollCall
  returned : List PollCall

namespace Hal

def init (cells : Nat → Int → SensorsEvent) (data : Nat → SensorsEvent) : Hal where
  queues i := .new SENSOR_EVENT_QUEUE_CAPACITY (cells i)
  writers _ := .outside
  mutex := .nobody
  waiting_for_data := false
  nextReadIndex := 0
  poll := .outside
  call := .begin data 0
  returned := []

/-! ## writerTask -/

inductive WriterStep
  /-- The first critical section. -/
  | acquire
  /-- `device->poll` stores an event. -/
  | store (j : Nat) (e : SensorsEvent)
  /-- `device->poll` returned no events. -/
  | giveUp
  /-- `device->poll` returned `k` events, and the mutex is taken. -/
  | lock (k : Nat)
  | mark
  | tell
  | unlock

def setQueue (s : Hal) (i : Nat) (c : Channel SensorsEvent) : Hal :=
  { s with queues := Function.update s.queues i c }

def setWriter (s : Hal) (i : Nat) (w : WriterAt) : Hal :=
  { s with writers := Function.update s.writers i w }

/-- A step of the writer outside its second critical section. -/
def outsideStep (s : Hal) (i : Nat) (step : ChannelStep SensorsEvent) : Option Hal :=
  if s.writers i = .outside then (s.queues i).step step |>.map (s.setQueue i) else none

/-- `pthread_cond_broadcast(&data_available_cond)`. -/
def broadcast (s : Hal) : Hal := { s with poll := if s.poll = .blocked then .woken else s.poll }

def writerStep (s : Hal) (i : Nat) : WriterStep → Option Hal
  | .acquire =>
    if s.mutex = .nobody then s.outsideStep i (.acquire SENSOR_EVENT_QUEUE_CAPACITY) else none
  | .store j e => s.outsideStep i (.store j e)
  | .giveUp => s.outsideStep i .giveUp
  | .lock k =>
    if s.mutex = .nobody ∧ s.writers i = .outside ∧ 1 ≤ k then
      some { s.setWriter i (.locked k) with mutex := .writer i }
    else none
  | .mark =>
    match s.writers i with
    | .locked k => (s.queues i).step (.mark k) |>.map fun c =>
        (s.setQueue i c).setWriter i (.marked (s.poll = .blocked))
    | _ => none
  | .tell =>
    match s.writers i with
    | .marked asleep =>
      let s' := s.setWriter i (.told asleep s.waiting_for_data)
      some (if s.waiting_for_data then s'.broadcast else s')
    | _ => none
  | .unlock =>
    match s.writers i with
    | .told _ _ => some { s.setWriter i .outside with mutex := .nobody }
    | _ => none

/-! ## poll -/

inductive PollStep
  | start (maxReads : Nat) (data : Nat → SensorsEvent)
  /-- One round of the inner loop. -/
  | iterate
  | wait
  /-- A wake-up without a broadcast. -/
  | wake
  | resume
  | ret

/-- The condition of the inner loop. -/
def again (queueCount : Nat) (s : Hal) : Bool :=
  s.call.empties < queueCount && s.call.eventsRead < s.call.maxReads

/-- The body of the inner loop. -/
def iterate (handles : GlobalHandles) (queueCount : Nat) (s : Hal) : Hal :=
  let i := s.nextReadIndex
  let next := (i + 1) % queueCount
  match (s.queues i).queue.peek with
  | none => { s with nextReadIndex := next, call := { s.call with empties := s.call.empties + 1 } }
  | some j =>
    { s.setQueue i (s.queues i).dequeue with
      nextReadIndex := next
      call := s.call.take handles i ((s.queues i).queue.mData j) }

def pollStep (handles : GlobalHandles) (queueCount : Nat) (s : Hal) : PollStep → Option Hal
  | .start maxReads data =>
    if s.poll = .outside ∧ s.mutex = .nobody ∧ 1 ≤ maxReads then
      some { s with poll := .scanning, mutex := .poll, call := .begin data maxReads }
    else none
  | .iterate =>
    if s.poll = .scanning ∧ s.again queueCount = true then some (s.iterate handles queueCount)
    else none
  | .wait =>
    if s.poll = .scanning ∧ s.again queueCount = false ∧ s.call.eventsRead = 0 then
      some { s with poll := .blocked, mutex := .nobody, waiting_for_data := true }
    else none
  | .wake => if s.poll = .blocked then some { s with poll := .woken } else none
  | .resume =>
    if s.poll = .woken ∧ s.mutex = .nobody then
      some { s with
        poll := .scanning, mutex := .poll, waiting_for_data := false
        call := { s.call with empties := 0 } }
    else none
  | .ret =>
    if s.poll = .scanning ∧ s.again queueCount = false ∧ s.call.eventsRead ≠ 0 then
      some { s with
        poll := .outside, mutex := .nobody
        returned := s.returned ++ [s.call], call := .begin s.call.data 0 }
    else none

inductive Step
  | writer (i : Nat) (w : WriterStep)
  | poll (p : PollStep)

def step (handles : GlobalHandles) (queueCount : Nat) (s : Hal) : Step → Option Hal
  | .writer i w => if i < queueCount then s.writerStep i w else none
  | .poll p => s.pollStep handles queueCount p

end Hal

end MochaHal.Sensors
