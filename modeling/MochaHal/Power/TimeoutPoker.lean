import MochaHal.Power.Hints
import MochaHal.Lib.Mailbox
import MochaHal.Lib.Claims
import MochaHal.Lib.Entries

/-! The timed requests of `timeoutpoker.cpp`: threads that push events, the looper thread
that runs them, and the descriptors that it opens and closes.  An event waits in
`mQueuedEvents` under a key that its message carries, so the poker is a mailbox, and a
descriptor that is to be closed is claimed.  Each invariant follows from `Change`, what a
step can do. -/

namespace MochaHal.Power

/-! ## Events -/

/-- What is written to a node: four bytes, or a command. -/
inductive NodeValue
  | value (val : Int)
  | constraint (priority max min : Int)
  deriving DecidableEq, Repr

/-- The events that are pushed: `PmQosOpenTimedEvent` and `PmQosOpenHandleEvent`, with who
waits for the handle. -/
inductive Request
  | timed (node : String) (value : NodeValue) (timeout : Int)
  | handle (node : String) (value : NodeValue) (waiting : Nat)
  deriving DecidableEq, Repr

/-- A `QueuedEvent`.  A `TimeoutEvent` is never pushed from outside. -/
inductive QueuedEvent
  | request (r : Request)
  | timeout (pmQosFd : Nat)
  deriving DecidableEq, Repr

/-- `requestPmQosTimed`. -/
def TimedRequest.request : TimedRequest → Request
  | .constraint node priority max min timeout_ms => .timed node (.constraint priority max min) (timeout_ms * 1000000)
  | .value node val timeout_ms => .timed node (.value val) (timeout_ms * 1000000)

/-- A message of the looper: its key, and the time before which it is not delivered. -/
structure Message where
  what : Nat
  due : Int
  deriving DecidableEq, Repr

/-- Who a descriptor belongs to: an open of `openPmQosTimed`, a handle, or someone else. -/
inductive Owner
  | timed (opened : Nat)
  | handle
  | other
  deriving DecidableEq, Repr

/-- Who closes. -/
inductive Closer
  | timeoutEvent (key : Nat)
  | handleCode
  | other
  deriving DecidableEq, Repr

/-- A close, and what it hit. -/
structure Closing where
  owner : Option Owner
  closer : Closer
  deriving DecidableEq, Repr

/-- A `CallbackContext` and its descriptor in the looper. -/
structure Context where
  handle : Nat
  fd : Nat
  deriving DecidableEq, Repr

/-- An event that was sent, with its delay, and the open it is to close. -/
structure Sent where
  event : QueuedEvent
  delay : Int
  opened : Option Nat
  deriving DecidableEq, Repr

/-- An open of `openPmQosTimed`. -/
structure Opened where
  key : Nat
  node : String
  value : NodeValue
  timeout : Int
  fd : Nat
  deriving DecidableEq, Repr

/-- Where the looper thread is. -/
inductive LooperPc
  | idle
  /-- in `handleMessage`, before `removeEventByKey` -/
  | received (key : Nat)
  /-- before `e->run` -/
  | running (key : Nat) (e : QueuedEvent)
  /-- in `openPmQosTimed`, before `sendEventDelayed` -/
  | opened (n fd : Nat) (timeout : Int)
  /-- in `createHandleForFd`, before `pipe` -/
  | piping (fd : Nat)
  /-- after `valueFor` of a key that is not there -/
  | crashed
  deriving DecidableEq, Repr

/-- The poker and its looper; `fds` are the descriptors of the process.  The last four fields
record what was done. -/
structure Poker where
  now : Int
  mKey : Nat
  mQueuedEvents : Nat → Option QueuedEvent
  messages : List Message
  pc : LooperPc
  fds : Nat → Option Owner
  contexts : List Context
  sent : List Sent
  ran : List (Nat × QueuedEvent)
  opens : List Opened
  closes : List Closing

inductive PokerAction
  | push (r : Request)
  | tick (ns : Nat)
  | deliver (m : Message)
  | removeEvent
  | openNode (fd : Option Nat)
  | send
  | pipe (fds : Option (Nat × Nat)) (added : Bool)
  | timeoutRequest
  | hangup (c : Context)
  | otherOpen (fd : Nat)
  | otherClose (fd : Nat)
  deriving DecidableEq, Repr

namespace Poker

/-- With descriptors that are open before. -/
def start (fds : Nat → Bool) : Poker where
  now := 0
  mKey := 0
  mQueuedEvents := fun _ => none
  messages := []
  pc := .idle
  fds := fun fd => if fds fd then some .other else none
  contexts := []
  sent := []
  ran := []
  opens := []
  closes := []

/-- `sendEventDelayed`, under the mutex.  A key is an `int`. -/
def sendEventDelayed (s : Poker) (delay : Int) (ev : QueuedEvent) (opened : Option Nat) : Poker :=
  { s with
    mKey := (s.mKey + 1) % 2 ^ 32
    mQueuedEvents := Function.update s.mQueuedEvents s.mKey (some ev)
    messages := s.messages ++ [⟨s.mKey, s.now + delay⟩]
    sent := s.sent ++ [⟨ev, delay, opened⟩] }

/-- `close`. -/
def close (s : Poker) (fd : Nat) (closer : Closer) : Poker :=
  { s with fds := Function.update s.fds fd none, closes := s.closes ++ [⟨s.fds fd, closer⟩] }

/-- `open`, with a descriptor that was free. -/
def openFd (s : Poker) (fd : Nat) (owner : Owner) : Poker :=
  { s with fds := Function.update s.fds fd (some owner) }

def toPc (s : Poker) (pc : LooperPc) : Poker := { s with pc }

/-- An event begins to run. -/
def run (s : Poker) (key : Nat) (e : QueuedEvent) : Poker := { s with ran := s.ran ++ [(key, e)] }

/-- `openPmQosTimed`, up to its message. -/
def openTimed (s : Poker) (o : Opened) : Poker :=
  { s.openFd o.fd (.timed s.opens.length) with
    opens := s.opens ++ [o]
    pc := .opened s.opens.length o.fd o.timeout }

/-- One step of a thread or of the looper; `none` when it is not enabled. -/
def next (s : Poker) : PokerAction → Option Poker
  | .push r => some (s.sendEventDelayed 0 (.request r) none)
  | .tick ns => some { s with now := s.now + ns }
  | .deliver m =>
    if s.pc = .idle ∧ m ∈ s.messages ∧ m.due ≤ s.now then
      some { s with messages := s.messages.erase m, pc := .received m.what }
    else none
  | .removeEvent =>
    match s.pc with
    | .received key =>
      match s.mQueuedEvents key with
      | none => some { s with pc := .crashed }
      | some e =>
        some { s with mQueuedEvents := Function.update s.mQueuedEvents key none, pc := .running key e }
    | _ => none
  | .openNode result =>
    match s.pc with
    | .running key (.request r) =>
      match result with
      | none => some ((s.run key (.request r)).toPc .idle)
      | some fd =>
        if s.fds fd = none then
          match r with
          | .timed node value timeout => some ((s.run key (.request r)).openTimed ⟨key, node, value, timeout, fd⟩)
          | .handle _ _ _ => some (((s.run key (.request r)).openFd fd .handle).toPc (.piping fd))
        else none
    | _ => none
  | .send =>
    match s.pc with
    | .opened n fd timeout => some ((s.sendEventDelayed timeout (.timeout fd) (some n)).toPc .idle)
    | _ => none
  | .pipe result added =>
    match s.pc with
    | .piping fd =>
      match result with
      | none => some ((s.close fd .handleCode).toPc .idle)
      | some (server, client) =>
        if s.fds server = none ∧ s.fds client = none ∧ server ≠ client then
          let s := ((s.openFd server .handle).openFd client .other).toPc .idle
          some (if added then { s with contexts := s.contexts ++ [Context.mk server fd] } else s)
        else none
    | _ => none
  | .timeoutRequest =>
    match s.pc with
    | .running key (.timeout fd) => some (((s.run key (.timeout fd)).close fd (.timeoutEvent key)).toPc .idle)
    | _ => none
  | .hangup c =>
    if s.pc = .idle ∧ c ∈ s.contexts then
      some (({ s with contexts := s.contexts.erase c }.close c.handle .handleCode).close c.fd .handleCode)
    else none
  | .otherOpen fd => if s.fds fd = none then some (s.openFd fd .other) else none
  | .otherClose fd => if s.fds fd = some .other then some (s.close fd .other) else none

/-! ## What a step can do -/

/-- A message came whose event is not there. -/
def Lost (s : Poker) : Prop := ∃ key, s.pc = .received key ∧ s.mQueuedEvents key = none

inductive Change (s : Poker) : Poker → Prop
  | push (r : Request) : Change s (s.sendEventDelayed 0 (.request r) none)
  | tick (ns : Nat) : Change s { s with now := s.now + ns }
  | deliver {m : Message} (hpc : s.pc = .idle) (hm : m ∈ s.messages) :
    Change s { s with messages := s.messages.erase m, pc := .received m.what }
  | removeEvent {key : Nat} {e : QueuedEvent} (hpc : s.pc = .received key) (he : s.mQueuedEvents key = some e) :
    Change s { s with mQueuedEvents := Function.update s.mQueuedEvents key none, pc := .running key e }
  | openFailed {key : Nat} {r : Request} (hpc : s.pc = .running key (.request r)) :
    Change s ((s.run key (.request r)).toPc .idle)
  | openTimed {key fd : Nat} {node : String} {value : NodeValue} {timeout : Int}
    (hpc : s.pc = .running key (.request (.timed node value timeout))) (hfree : s.fds fd = none) :
    Change s ((s.run key (.request (.timed node value timeout))).openTimed ⟨key, node, value, timeout, fd⟩)
  | openHandle {key fd waiting : Nat} {node : String} {value : NodeValue}
    (hpc : s.pc = .running key (.request (.handle node value waiting))) (hfree : s.fds fd = none) :
    Change s (((s.run key (.request (.handle node value waiting))).openFd fd .handle).toPc (.piping fd))
  | send {n fd : Nat} {timeout : Int} (hpc : s.pc = .opened n fd timeout) :
    Change s ((s.sendEventDelayed timeout (.timeout fd) (some n)).toPc .idle)
  | pipeFailed {fd : Nat} (hpc : s.pc = .piping fd) : Change s ((s.close fd .handleCode).toPc .idle)
  | pipe {fd server client : Nat} (hpc : s.pc = .piping fd) (hserver : s.fds server = none)
    (hclient : s.fds client = none) (hne : server ≠ client) (contexts : List Context)
    (hcontexts : contexts = s.contexts ∨ contexts = s.contexts ++ [⟨server, fd⟩]) :
    Change s { (((s.openFd server .handle).openFd client .other).toPc .idle) with contexts }
  | timeoutRequest {key fd : Nat} (hpc : s.pc = .running key (.timeout fd)) :
    Change s (((s.run key (.timeout fd)).close fd (.timeoutEvent key)).toPc .idle)
  | hangup {c : Context} (hpc : s.pc = .idle) (hc : c ∈ s.contexts) :
    Change s (({ s with contexts := s.contexts.erase c }.close c.handle .handleCode).close c.fd .handleCode)
  | otherOpen {fd : Nat} (hfree : s.fds fd = none) : Change s (s.openFd fd .other)
  | otherClose {fd : Nat} (howner : s.fds fd = some .other) : Change s (s.close fd .other)

variable {s s' : Poker}

theorem change_of_next {a : PokerAction} (h : s.next a = some s') : s.Lost ∨ Change s s' := by
  cases a with
  | push r => exact .inr (Option.some.inj h ▸ .push r)
  | tick ns => exact .inr (Option.some.inj h ▸ .tick ns)
  | deliver m =>
    simp only [next, Option.ite_none_right_eq_some] at h
    obtain ⟨⟨hpc, hm, _⟩, h⟩ := h
    exact .inr (Option.some.inj h ▸ .deliver hpc hm)
  | removeEvent =>
    simp only [next] at h
    cases hpc : s.pc with
    | received key =>
      rw [hpc] at h
      cases he : s.mQueuedEvents key with
      | none => exact .inl ⟨key, hpc, he⟩
      | some e =>
        simp only [he] at h
        exact .inr (Option.some.inj h ▸ .removeEvent hpc he)
    | _ =>
      rw [hpc] at h
      cases h
  | openNode result =>
    simp only [next] at h
    split at h
    next key r hpc =>
      split at h
      next => exact .inr (Option.some.inj h ▸ .openFailed hpc)
      next fd =>
        rw [Option.ite_none_right_eq_some] at h
        obtain ⟨hfree, h⟩ := h
        cases r with
        | timed node value timeout => exact .inr (Option.some.inj h ▸ .openTimed hpc hfree)
        | handle node value waiting => exact .inr (Option.some.inj h ▸ .openHandle hpc hfree)
    next => cases h
  | send =>
    simp only [next] at h
    split at h
    next n fd timeout hpc => exact .inr (Option.some.inj h ▸ .send hpc)
    next => cases h
  | pipe result added =>
    simp only [next] at h
    split at h
    next fd hpc =>
      split at h
      next => exact .inr (Option.some.inj h ▸ .pipeFailed hpc)
      next server client =>
        rw [Option.ite_none_right_eq_some] at h
        obtain ⟨⟨hserver, hclient, hne⟩, h⟩ := h
        cases added with
        | true => exact .inr (Option.some.inj h ▸ .pipe hpc hserver hclient hne _ (.inr rfl))
        | false => exact .inr (Option.some.inj h ▸ .pipe hpc hserver hclient hne _ (.inl rfl))
    next => cases h
  | timeoutRequest =>
    simp only [next] at h
    split at h
    next key fd hpc => exact .inr (Option.some.inj h ▸ .timeoutRequest hpc)
    next => cases h
  | hangup c =>
    simp only [next, Option.ite_none_right_eq_some] at h
    obtain ⟨⟨hpc, hc⟩, h⟩ := h
    exact .inr (Option.some.inj h ▸ .hangup hpc hc)
  | otherOpen fd =>
    simp only [next, Option.ite_none_right_eq_some] at h
    obtain ⟨hfree, h⟩ := h
    exact .inr (Option.some.inj h ▸ .otherOpen hfree)
  | otherClose fd =>
    simp only [next, Option.ite_none_right_eq_some] at h
    obtain ⟨howner, h⟩ := h
    exact .inr (Option.some.inj h ▸ .otherClose howner)

/-! ## The events as a mailbox -/

def heldOf : LooperPc → InHand QueuedEvent
  | .received key => .received key
  | .running key e => .running key e
  | _ => .nothing

/-- The events of the poker, and where each of them is. -/
def mailbox (s : Poker) : Mailbox QueuedEvent where
  table := s.mQueuedEvents
  messages := s.messages.map Message.what
  held := heldOf s.pc
  sent := s.sent.map Sent.event
  ran := s.ran

theorem length_mailbox_sent (s : Poker) : s.mailbox.sent.length = s.sent.length := List.length_map _

theorem mailbox_held {pc : LooperPc} (hpc : s.pc = pc) : s.mailbox.held = heldOf pc := by
  unfold mailbox
  rw [hpc]

/-- The event that runs is the one that was sent. -/
theorem event_of_running (h : s.mailbox.Inv) {key : Nat} {e : QueuedEvent} (hpc : s.pc = .running key e) :
    (s.sent.map Sent.event)[key]? = some e :=
  h.running key e (mailbox_held hpc)

theorem mKey_change (hc : Change s s') (h : s.mKey = s.sent.length % 2 ^ 32) : s'.mKey = s'.sent.length % 2 ^ 32 := by
  have hsend (delay : Int) (ev : QueuedEvent) (opened : Option Nat) :
      (s.sendEventDelayed delay ev opened).mKey = (s.sendEventDelayed delay ev opened).sent.length % 2 ^ 32 := by
    unfold sendEventDelayed
    dsimp only
    rw [h, List.length_append, List.length_singleton, Nat.mod_add_mod]
  cases hc with
  | push r => exact hsend 0 (.request r) none
  | @send n fd timeout hpc => exact hsend timeout (.timeout fd) (some n)
  | _ => exact h

/-- `sendEventDelayed` posts, under the number of events that were sent before. -/
theorem send_post (hkey : s.mKey = s.sent.length) (delay : Int) (ev : QueuedEvent) (opened : Option Nat) :
    Mailbox.Step s.mailbox (s.sendEventDelayed delay ev opened).mailbox := by
  have heq : (s.sendEventDelayed delay ev opened).mailbox =
      { s.mailbox with
        table := Function.update s.mailbox.table s.mailbox.sent.length (some ev)
        messages := s.mailbox.messages ++ [s.mailbox.sent.length]
        sent := s.mailbox.sent ++ [ev] } := by
    simp [mailbox, sendEventDelayed, hkey]
  exact heq ▸ .post s.mailbox ev

/-- The poker does what a mailbox does. -/
theorem mailbox_change (hc : Change s s') (hkey : s.mKey = s.sent.length) :
    s'.mailbox = s.mailbox ∨ Mailbox.Step s.mailbox s'.mailbox := by
  have hsame {pc : LooperPc} {t : Poker} (hpc : s.pc = pc) (heq : t.mailbox = { s.mailbox with held := heldOf pc }) :
      t.mailbox = s.mailbox ∨ Mailbox.Step s.mailbox t.mailbox := by
    left
    rw [heq, ← mailbox_held hpc]
  cases hc with
  | push r => exact .inr (send_post hkey 0 (.request r) none)
  | @deliver m hpc hm =>
    have hperm : s.mailbox.messages.Perm (m.what :: (s.messages.erase m).map Message.what) :=
      (List.perm_cons_erase hm).map Message.what
    exact .inr (.deliver _ (mailbox_held hpc) hperm)
  | removeEvent hpc he => exact .inr (.take _ (mailbox_held hpc) he)
  | openFailed hpc | openTimed hpc | openHandle hpc | timeoutRequest hpc => exact .inr (.run _ (mailbox_held hpc))
  | @send n fd timeout hpc =>
    have hidle : ((s.sendEventDelayed timeout (.timeout fd) (some n)).toPc .idle).mailbox =
        (s.sendEventDelayed timeout (.timeout fd) (some n)).mailbox := by
      unfold mailbox toPc sendEventDelayed
      dsimp only
      rw [hpc]
      rfl
    exact .inr (hidle ▸ send_post hkey timeout (.timeout fd) (some n))
  | pipeFailed hpc | pipe hpc => exact hsame hpc rfl
  | tick | hangup | otherOpen | otherClose => exact .inl rfl

/-- What was done stays done. -/
structure Grows (s s' : Poker) : Prop where
  sent : s.sent <+: s'.sent
  ran : s.ran <+: s'.ran
  opens : s.opens <+: s'.opens
  closes : s.closes <+: s'.closes

theorem Grows.refl (s : Poker) : Grows s s :=
  ⟨List.prefix_refl _, List.prefix_refl _, List.prefix_refl _, List.prefix_refl _⟩

theorem Grows.trans {s'' : Poker} (h : Grows s s') (h' : Grows s' s'') : Grows s s'' :=
  ⟨h.sent.trans h'.sent, h.ran.trans h'.ran, h.opens.trans h'.opens, h.closes.trans h'.closes⟩

theorem Change.grows (hc : Change s s') : Grows s s' := by
  have hrefl := Grows.refl s
  cases hc with
  | push | send => exact { hrefl with sent := List.prefix_append _ _ }
  | openFailed | openHandle => exact { hrefl with ran := List.prefix_append _ _ }
  | openTimed => exact { hrefl with ran := List.prefix_append _ _, opens := List.prefix_append _ _ }
  | timeoutRequest => exact { hrefl with ran := List.prefix_append _ _, closes := List.prefix_append _ _ }
  | pipeFailed | otherClose => exact { hrefl with closes := List.prefix_append _ _ }
  | hangup => exact { hrefl with closes := (List.prefix_append _ _).trans (List.prefix_append _ _) }
  | tick | deliver | removeEvent | pipe | otherOpen => exact { hrefl with }

/-! ## Opens and their timeout events -/

/-- The open whose timeout event is sent next. -/
def toSend : LooperPc → List Nat
  | .opened n _ _ => [n]
  | _ => []

/-- A timeout event is sent with the descriptor of its open, and a request with none. -/
def ToClose (opens : List Opened) (x : Sent) : Prop :=
  match x.opened with
  | none => ∃ r, x.event = .request r
  | some n => ∃ o, opens[n]? = some o ∧ x.event = .timeout o.fd ∧ x.delay = o.timeout

theorem ToClose.mono {opens opens' : List Opened} {x : Sent} (h : ToClose opens x) (hopens : opens <+: opens') :
    ToClose opens' x := by
  obtain ⟨more, rfl⟩ := hopens
  obtain ⟨event, delay, opened⟩ := x
  cases opened with
  | none => exact h
  | some n =>
    obtain ⟨o, ho, hevent⟩ := h
    have hlt : n < opens.length := (List.getElem?_eq_some_iff.mp ho).1
    exact ⟨o, (List.getElem?_append_left hlt).trans ho, hevent⟩

/-- Each open has one timeout event, with its descriptor; what is opened was asked for. -/
structure Opening (s : Poker) : Prop where
  timeouts : (s.sent.filterMap Sent.opened ++ toSend s.pc).Perm (List.range s.opens.length)
  sent : ∀ x ∈ s.sent, ToClose s.opens x
  pending : ∀ n fd timeout, s.pc = .opened n fd timeout →
    ∃ o, s.opens[n]? = some o ∧ o.fd = fd ∧ o.timeout = timeout
  own : ∀ o ∈ s.opens, (o.key, QueuedEvent.request (.timed o.node o.value o.timeout)) ∈ s.ran

theorem timeouts_change (hc : Change s s') (h : Opening s) :
    (s'.sent.filterMap Sent.opened ++ toSend s'.pc).Perm (List.range s'.opens.length) := by
  have hnone {pc : LooperPc} (hpc : s.pc = pc) (hsend : toSend pc = []) :
      (s.sent.filterMap Sent.opened ++ []).Perm (List.range s.opens.length) := by
    rw [← hsend, ← hpc]
    exact h.timeouts
  cases hc with
  | push r =>
    have hsame : (s.sendEventDelayed 0 (.request r) none).sent.filterMap Sent.opened =
        s.sent.filterMap Sent.opened := by
      simp [sendEventDelayed]
    rw [hsame]
    exact h.timeouts
  | @send n fd timeout hpc =>
    have hmore : ((s.sendEventDelayed timeout (.timeout fd) (some n)).toPc .idle).sent.filterMap Sent.opened =
        s.sent.filterMap Sent.opened ++ toSend s.pc := by
      rw [hpc]
      simp [sendEventDelayed, toPc, toSend]
    rw [hmore]
    exact (List.append_nil _).symm ▸ h.timeouts
  | openTimed hpc =>
    have hperm := (hnone hpc rfl).append_right [s.opens.length]
    rw [List.append_nil, ← List.range_succ] at hperm
    unfold openTimed
    dsimp only
    rw [List.length_append]
    exact hperm
  | deliver hpc | removeEvent hpc | openFailed hpc | openHandle hpc | pipeFailed hpc | pipe hpc | timeoutRequest hpc =>
    exact hnone hpc rfl
  | tick | hangup | otherOpen | otherClose => exact h.timeouts

theorem sent_change (hc : Change s s') (h : Opening s) : ∀ x ∈ s'.sent, ToClose s'.opens x := by
  intro x hx
  have hold (hx : x ∈ s.sent) : ToClose s'.opens x := (h.sent x hx).mono hc.grows.opens
  cases hc with
  | push r =>
    rcases List.mem_append.mp hx with hx | hx
    · exact hold hx
    · obtain rfl := List.mem_singleton.mp hx
      exact ⟨r, rfl⟩
  | @send n fd timeout hpc =>
    rcases List.mem_append.mp hx with hx | hx
    · exact hold hx
    · obtain rfl := List.mem_singleton.mp hx
      obtain ⟨o, ho, rfl, rfl⟩ := h.pending n fd timeout hpc
      exact ⟨o, ho, rfl, rfl⟩
  | _ => exact hold hx

theorem pending_change (hc : Change s s') (h : Opening s) (n fd : Nat) (timeout : Int)
    (hpc' : s'.pc = .opened n fd timeout) : ∃ o, s'.opens[n]? = some o ∧ o.fd = fd ∧ o.timeout = timeout := by
  cases hc with
  | openTimed hpc =>
    obtain ⟨rfl, rfl, rfl⟩ := LooperPc.opened.inj hpc'
    exact ⟨_, List.getElem?_concat_length, rfl, rfl⟩
  | push | tick | hangup | otherOpen | otherClose => exact h.pending n fd timeout hpc'
  | _ => cases hpc'

theorem own_change (hc : Change s s') (h : Opening s) :
    ∀ o ∈ s'.opens, (o.key, QueuedEvent.request (.timed o.node o.value o.timeout)) ∈ s'.ran := by
  intro o ho
  have hold (ho : o ∈ s.opens) : (o.key, QueuedEvent.request (.timed o.node o.value o.timeout)) ∈ s'.ran :=
    hc.grows.ran.subset (h.own o ho)
  cases hc with
  | openTimed hpc =>
    rcases List.mem_append.mp ho with ho | ho
    · exact hold ho
    · obtain rfl := List.mem_singleton.mp ho
      exact List.mem_append_right _ (List.mem_singleton.mpr rfl)
  | _ => exact hold ho

/-- **Step.** -/
theorem Opening.change (h : Opening s) (hc : Change s s') : Opening s' :=
  ⟨timeouts_change hc h, sent_change hc h, pending_change hc h, own_change hc h⟩

/-- The open that the event of a key is to close. -/
def openedBy (sent : List Sent) (key : Nat) : Option Nat := sent[key]?.bind Sent.opened

theorem openedBy_mono {sent sent' : List Sent} (h : sent <+: sent') {key : Nat} (hlt : key < sent.length) :
    openedBy sent' key = openedBy sent key := by
  obtain ⟨more, rfl⟩ := h
  unfold openedBy
  rw [List.getElem?_append_left hlt]

/-- A timeout event closes its own descriptor. -/
theorem Opening.of_timeout (h : Opening s) {key fd : Nat}
    (hkey : (s.sent.map Sent.event)[key]? = some (.timeout fd)) :
    ∃ n o, s.sent[key]? = some ⟨.timeout fd, o.timeout, some n⟩ ∧ s.opens[n]? = some o ∧ o.fd = fd := by
  rw [List.getElem?_map, Option.map_eq_some_iff] at hkey
  obtain ⟨⟨event, delay, opened⟩, hx, rfl⟩ := hkey
  have hclose := h.sent _ (List.mem_of_getElem? hx)
  cases opened with
  | none =>
    obtain ⟨r, hr⟩ := hclose
    cases hr
  | some n =>
    obtain ⟨o, ho, hevent, rfl⟩ := hclose
    exact ⟨n, o, hx, ho, (QueuedEvent.timeout.inj hevent).symm⟩

/-- Two timeout events have two opens. -/
theorem Opening.openedBy_inj (h : Opening s) {key key' n : Nat} (hkey : openedBy s.sent key = some n)
    (hkey' : openedBy s.sent key' = some n) : key = key' := by
  have hnodup : (s.sent.filterMap Sent.opened).Nodup :=
    (List.nodup_append.mp (h.timeouts.nodup_iff.mpr List.nodup_range)).1
  obtain ⟨x, hx, hopened⟩ := Option.bind_eq_some_iff.mp hkey
  obtain ⟨x', hx', hopened'⟩ := Option.bind_eq_some_iff.mp hkey'
  obtain ⟨hlt, rfl⟩ := List.getElem?_eq_some_iff.mp hx
  obtain ⟨hlt', rfl⟩ := List.getElem?_eq_some_iff.mp hx'
  have hpairs := List.pairwise_iff_getElem.mp (List.pairwise_filterMap.mp hnodup)
  rcases Nat.lt_trichotomy key key' with hlt'' | rfl | hlt''
  · exact absurd rfl (hpairs key key' hlt hlt' hlt'' n hopened n hopened')
  · rfl
  · exact absurd rfl (hpairs key' key hlt' hlt hlt'' n hopened' n hopened)

/-! ## Who claims a descriptor -/

def eventClaim (x : Sent) : Option (Nat × Owner) :=
  match x.event, x.opened with
  | .timeout fd, some n => some (fd, .timed n)
  | _, _ => none

def claimOf (sent : List Sent) (key : Nat) : Option (Nat × Owner) := sent[key]?.bind eventClaim

/-- A timeout event claims its descriptor until it is run. -/
def timedClaims (s : Poker) : List (Nat × Owner) := s.mailbox.waiting.filterMap (claimOf s.sent)

def pcClaims : LooperPc → List (Nat × Owner)
  | .opened n fd _ => [(fd, .timed n)]
  | .piping fd => [(fd, .handle)]
  | _ => []

def contextClaims (c : Context) : List (Nat × Owner) := [(c.handle, .handle), (c.fd, .handle)]

/-- The descriptors that the poker is to close. -/
def claims (s : Poker) : List (Nat × Owner) :=
  s.timedClaims ++ (pcClaims s.pc ++ s.contexts.flatMap contextClaims)

theorem claims_ne_other (s : Poker) : ∀ c ∈ s.claims, c.2 ≠ .other := by
  intro c hc
  rcases List.mem_append.mp hc with hc | hc
  · obtain ⟨key, _, hkey⟩ := List.mem_filterMap.mp hc
    obtain ⟨x, _, hx⟩ := Option.bind_eq_some_iff.mp hkey
    unfold eventClaim at hx
    split at hx
    · rw [← Option.some.inj hx]
      exact fun h => nomatch h
    · cases hx
  · rcases List.mem_append.mp hc with hc | hc
    · unfold pcClaims at hc
      split at hc <;> simp_all
    · obtain ⟨context, _, hcontext⟩ := List.mem_flatMap.mp hc
      simp only [contextClaims, List.mem_cons, List.not_mem_nil, or_false] at hcontext
      rcases hcontext with rfl | rfl <;> exact fun h => nomatch h

theorem timedClaims_congr {t : Poker} (hsent : t.sent = s.sent) (hwaiting : t.mailbox.waiting.Perm s.mailbox.waiting) :
    t.timedClaims.Perm s.timedClaims := by
  unfold timedClaims
  rw [hsent]
  exact hwaiting.filterMap _

/-- An event that is sent claims what it is to close. -/
theorem timedClaims_send (h : s.mailbox.Inv) (hkey : s.mKey = s.sent.length) (delay : Int) (ev : QueuedEvent)
    (opened : Option Nat) :
    (s.sendEventDelayed delay ev opened).timedClaims.Perm
      ((eventClaim ⟨ev, delay, opened⟩).toList ++ s.timedClaims) := by
  have hwaiting : (s.sendEventDelayed delay ev opened).mailbox.waiting.Perm (s.sent.length :: s.mailbox.waiting) := by
    rw [List.perm_iff_count]
    intro key
    simp only [mailbox, sendEventDelayed, hkey, Mailbox.waiting, Mailbox.outstanding, List.map_append, List.map_cons,
      List.map_nil, List.count_append, List.count_cons, List.count_nil]
    omega
  have hlast : claimOf (s.sent ++ [⟨ev, delay, opened⟩]) s.sent.length = eventClaim ⟨ev, delay, opened⟩ := by
    unfold claimOf
    rw [List.getElem?_concat_length]
    rfl
  have hold : s.mailbox.waiting.filterMap (claimOf (s.sent ++ [⟨ev, delay, opened⟩])) = s.timedClaims := by
    refine List.filterMap_congr fun key hmem => ?_
    have hlt : key < s.sent.length := length_mailbox_sent s ▸ h.lt_of_waiting hmem
    unfold claimOf
    rw [List.getElem?_append_left hlt]
  have hperm := hwaiting.filterMap (claimOf (s.sent ++ [⟨ev, delay, opened⟩]))
  rw [Entries.filterMap_cons_toList, hlast, hold] at hperm
  exact hperm

/-- An event that begins to run gives its claim up. -/
theorem timedClaims_run {key : Nat} {e : QueuedEvent} (hpc : s.pc = .running key e) {t : Poker}
    (ht : t.mailbox = { s.mailbox with held := .nothing, ran := s.ran ++ [(key, e)] }) (hsent : t.sent = s.sent) :
    s.timedClaims.Perm ((claimOf s.sent key).toList ++ t.timedClaims) := by
  have hwaiting : s.mailbox.waiting.Perm (key :: t.mailbox.waiting) := by
    rw [ht, List.perm_iff_count]
    intro key'
    simp only [mailbox, hpc, heldOf, Mailbox.waiting, Mailbox.outstanding, Mailbox.receivedKeys,
      Mailbox.runningKeys, List.count_append, List.count_cons, List.count_nil]
    omega
  have hperm := hwaiting.filterMap (claimOf s.sent)
  rw [Entries.filterMap_cons_toList] at hperm
  unfold timedClaims
  rw [hsent]
  exact hperm

/-- The looper goes on with the same events. -/
theorem claims_of_waiting {pc : LooperPc} (hpc : s.pc = pc) (t : Poker) (hsent : t.sent = s.sent)
    (hwaiting : t.mailbox.waiting.Perm s.mailbox.waiting) :
    s.claims.Perm (pcClaims pc ++ (t.timedClaims ++ s.contexts.flatMap contextClaims)) := by
  have htimed := (timedClaims_congr hsent hwaiting).symm
  rw [List.perm_iff_count] at htimed ⊢
  intro c
  have := htimed c
  unfold claims
  rw [hpc]
  simp only [List.count_append]
  omega

/-- A request that begins to run had no claim. -/
theorem claims_request (hmailbox : s.mailbox.Inv) {key : Nat} {r : Request}
    (hpc : s.pc = .running key (.request r)) {t : Poker}
    (ht : t.mailbox = { s.mailbox with held := .nothing, ran := s.ran ++ [(key, .request r)] })
    (hsent : t.sent = s.sent) : s.claims.Perm (t.timedClaims ++ s.contexts.flatMap contextClaims) := by
  have hevent := event_of_running hmailbox hpc
  have hnone : claimOf s.sent key = none := by
    rw [List.getElem?_map, Option.map_eq_some_iff] at hevent
    obtain ⟨x, hx, hrequest⟩ := hevent
    unfold claimOf eventClaim
    rw [hx, Option.bind_some, hrequest]
  have hperm := timedClaims_run hpc ht hsent
  rw [hnone] at hperm
  unfold claims
  rw [hpc]
  exact hperm.append_right _

/-- A timeout event that begins to run claims the descriptor that it closes. -/
theorem claims_timeout (hopening : Opening s) (hmailbox : s.mailbox.Inv) {key fd : Nat}
    (hpc : s.pc = .running key (.timeout fd)) :
    ∃ n, openedBy s.sent key = some n ∧
      s.claims.Perm
        ((fd, .timed n) :: (((s.run key (.timeout fd)).close fd (.timeoutEvent key)).toPc .idle).claims) := by
  obtain ⟨n, o, hx, _, _⟩ := hopening.of_timeout (event_of_running hmailbox hpc)
  have hclaim : claimOf s.sent key = some (fd, .timed n) := by
    unfold claimOf
    rw [hx]
    rfl
  have hperm := timedClaims_run (t := ((s.run key (.timeout fd)).close fd (.timeoutEvent key)).toPc .idle) hpc rfl rfl
  rw [hclaim] at hperm
  refine ⟨n, by unfold openedBy; rw [hx]; rfl, ?_⟩
  unfold claims
  rw [hpc]
  exact hperm.append_right _

theorem claims_hangup {c : Context} (hc : c ∈ s.contexts) :
    s.claims.Perm ((c.handle, .handle) :: (c.fd, .handle) ::
      (({ s with contexts := s.contexts.erase c }.close c.handle .handleCode).close c.fd .handleCode).claims) := by
  have hflat : (s.contexts.flatMap contextClaims).Perm
      (contextClaims c ++ (s.contexts.erase c).flatMap contextClaims) :=
    (List.perm_cons_erase hc).flatMap_right contextClaims
  rw [List.perm_iff_count] at hflat ⊢
  intro x
  have := hflat x
  unfold claims close
  simp only [contextClaims, List.count_append, List.count_cons, List.count_nil] at this ⊢
  unfold timedClaims mailbox
  dsimp only
  omega

theorem claims_send (hmailbox : s.mailbox.Inv) (hkey : s.mKey = s.sent.length) {n fd : Nat} {timeout : Int}
    (hpc : s.pc = .opened n fd timeout) :
    s.claims.Perm ((s.sendEventDelayed timeout (.timeout fd) (some n)).toPc .idle).claims := by
  have htimed := timedClaims_send hmailbox hkey timeout (.timeout fd) (some n)
  have hidle : ((s.sendEventDelayed timeout (.timeout fd) (some n)).toPc .idle).timedClaims =
      (s.sendEventDelayed timeout (.timeout fd) (some n)).timedClaims := by
    unfold timedClaims mailbox toPc sendEventDelayed
    dsimp only
    rw [hpc]
    rfl
  unfold claims
  rw [hidle, hpc]
  rw [List.perm_iff_count] at htimed ⊢
  intro c
  have := htimed c
  simp only [eventClaim, pcClaims, toPc, sendEventDelayed, Option.toList, List.count_append, List.count_cons,
    List.count_nil] at this ⊢
  omega

/-- The descriptor of a handle is closed with the pipe, or it leaks. -/
theorem claimed_pipe {fd server client : Nat} (hpc : s.pc = .piping fd) (hserver : s.fds server = none)
    (hclient : s.fds client = none) (hne : server ≠ client) {contexts : List Context}
    (hcontexts : contexts = s.contexts ∨ contexts = s.contexts ++ [⟨server, fd⟩]) (h : Claimed s.fds s.claims) :
    Claimed (Function.update (Function.update s.fds server (some .handle)) client (some .other))
      { (((s.openFd server .handle).openFd client .other).toPc .idle) with contexts }.claims := by
  have hsame : { s.mailbox with held := heldOf (.piping fd) }.waiting = s.mailbox.waiting := by
    rw [← mailbox_held hpc]
  have hperm := claims_of_waiting hpc
    { (((s.openFd server .handle).openFd client .other).toPc .idle) with contexts } rfl (.of_eq hsame)
  have hclient' : Function.update s.fds server (some .handle) client = none := by
    rw [Function.update_of_ne hne.symm]
    exact hclient
  rcases hcontexts with rfl | rfl
  · exact ((h.perm hperm).tail.take hserver .handle).take hclient' .other
  · refine (((h.perm hperm).acquire hserver .handle).take hclient' .other).perm ?_
    rw [List.perm_iff_count]
    intro c
    unfold claims
    simp only [pcClaims, contextClaims, toPc, List.flatMap_append, List.flatMap_cons, List.flatMap_nil,
      List.count_append, List.count_cons, List.count_nil]
    omega

/-- **Step.** -/
theorem claimed_change (hc : Change s s') (hmailbox : s.mailbox.Inv) (hopening : Opening s)
    (hkey : s.mKey = s.sent.length) (h : Claimed s.fds s.claims) : Claimed s'.fds s'.claims := by
  cases hc with
  | push r => exact h.perm ((timedClaims_send hmailbox hkey 0 (.request r) none).symm.append_right _)
  | send hpc => exact h.perm (claims_send hmailbox hkey hpc)
  | @deliver m hpc hm =>
    have hmessages := (List.perm_cons_erase hm).map Message.what
    have hperm := claims_of_waiting hpc { s with messages := s.messages.erase m, pc := .received m.what } rfl
      (Mailbox.waiting_deliver (mailbox_held hpc) hmessages)
    exact h.perm hperm
  | @removeEvent key e hpc he =>
    have hperm := claims_of_waiting hpc
      { s with mQueuedEvents := Function.update s.mQueuedEvents key none, pc := .running key e } rfl
      (.of_eq (Mailbox.waiting_take (mailbox_held hpc) _))
    exact h.perm hperm
  | openFailed hpc => exact h.perm (claims_request hmailbox hpc rfl rfl)
  | @openTimed key fd node value timeout hpc hfree =>
    have hrequest := h.perm (claims_request hmailbox hpc
      (t := (s.run key (.request (.timed node value timeout))).openTimed ⟨key, node, value, timeout, fd⟩) rfl rfl)
    exact (hrequest.acquire hfree (.timed s.opens.length)).perm List.perm_middle.symm
  | @openHandle key fd waiting node value hpc hfree =>
    have hrequest := h.perm (claims_request hmailbox hpc
      (t := ((s.run key (.request (.handle node value waiting))).openFd fd .handle).toPc (.piping fd)) rfl rfl)
    exact (hrequest.acquire hfree .handle).perm List.perm_middle.symm
  | @pipeFailed fd hpc =>
    have hsame : { s.mailbox with held := heldOf (.piping fd) }.waiting = s.mailbox.waiting := by
      rw [← mailbox_held hpc]
    have hperm := claims_of_waiting hpc ((s.close fd .handleCode).toPc .idle) rfl (.of_eq hsame)
    exact (h.perm hperm).release
  | pipe hpc hserver hclient hne contexts hcontexts => exact claimed_pipe hpc hserver hclient hne hcontexts h
  | timeoutRequest hpc =>
    obtain ⟨n, _, hperm⟩ := claims_timeout hopening hmailbox hpc
    exact (h.perm hperm).release
  | hangup hpc hc => exact (h.perm (claims_hangup hc)).release.release
  | otherOpen hfree => exact h.take hfree .other
  | otherClose howner => exact h.drop howner s.claims_ne_other
  | tick => exact h

/-! ## What was closed -/

/-- The timeout event that closes. -/
def closerKey (c : Closing) : Option Nat :=
  match c.closer with
  | .timeoutEvent key => some key
  | _ => none

/-- The open that is closed. -/
def closedOpen (c : Closing) : Option Nat :=
  match c.owner with
  | some (.timed n) => some n
  | _ => none

def timeoutKey (p : Nat × QueuedEvent) : Option Nat :=
  match p.2 with
  | .timeout _ => some p.1
  | .request _ => none

theorem timeoutKey_eq {p : Nat × QueuedEvent} {key : Nat} :
    timeoutKey p = some key ↔ p.1 = key ∧ ∃ fd, p.2 = .timeout fd := by
  obtain ⟨key', e⟩ := p
  cases e with
  | timeout fd => exact ⟨fun h => ⟨Option.some.inj h, fd, rfl⟩, fun h => congrArg some h.1⟩
  | request r => exact ⟨fun h => (by cases h), fun ⟨_, _, he⟩ => (by cases he)⟩

/-- A timeout event closes its open, and nobody else closes one. -/
structure Closed (s : Poker) : Prop where
  own : ∀ c ∈ s.closes, closedOpen c = (closerKey c).bind (openedBy s.sent)
  keys : s.closes.filterMap closerKey = s.ran.filterMap timeoutKey

theorem Closed.mem_ran (h : Closed s) {c : Closing} (hc : c ∈ s.closes) {key : Nat} (hkey : closerKey c = some key) :
    key ∈ s.ran.map Prod.fst := by
  have hmem : key ∈ s.ran.filterMap timeoutKey := by
    rw [← h.keys]
    exact List.mem_filterMap.mpr ⟨c, hc, hkey⟩
  obtain ⟨p, hp, hpkey⟩ := List.mem_filterMap.mp hmem
  obtain ⟨rfl, _⟩ := timeoutKey_eq.mp hpkey
  exact List.mem_map_of_mem hp

theorem closed_keys_change (hc : Change s s') (h : s.closes.filterMap closerKey = s.ran.filterMap timeoutKey) :
    s'.closes.filterMap closerKey = s'.ran.filterMap timeoutKey := by
  have happend {c : List Closing} {r : List (Nat × QueuedEvent)}
      (hmore : c.filterMap closerKey = r.filterMap timeoutKey) :
      (s.closes ++ c).filterMap closerKey = (s.ran ++ r).filterMap timeoutKey := by
    rw [List.filterMap_append, List.filterMap_append, h, hmore]
  cases hc with
  | openFailed hpc | openTimed hpc | openHandle hpc =>
    exact (congrArg _ (List.append_nil _).symm).trans (happend (c := []) rfl)
  | timeoutRequest hpc => exact happend rfl
  | pipeFailed hpc | otherClose howner =>
    exact (happend (r := []) rfl).trans (congrArg _ (List.append_nil _))
  | hangup hpc hc =>
    unfold close
    dsimp only
    rw [List.append_assoc]
    exact (happend (r := []) rfl).trans (congrArg _ (List.append_nil _))
  | push | tick | deliver | removeEvent | send | pipe | otherOpen => exact h

theorem closed_own_change (hc : Change s s') (hmailbox : s.mailbox.Inv) (hopening : Opening s)
    (hclaimed : Claimed s.fds s.claims) (h : Closed s) :
    ∀ c ∈ s'.closes, closedOpen c = (closerKey c).bind (openedBy s'.sent) := by
  have hold : ∀ c ∈ s.closes, closedOpen c = (closerKey c).bind (openedBy s'.sent) := by
    intro c hmem
    rw [h.own c hmem]
    cases hkey : closerKey c with
    | none => rfl
    | some key =>
      have hlt : key < s.sent.length := length_mailbox_sent s ▸ hmailbox.lt_of_ran (h.mem_ran hmem hkey)
      exact (openedBy_mono hc.grows.sent hlt).symm
  have happend {more : List Closing} (hmore : ∀ c ∈ more, closedOpen c = (closerKey c).bind (openedBy s'.sent)) :
      ∀ c ∈ s.closes ++ more, closedOpen c = (closerKey c).bind (openedBy s'.sent) := fun c hmem =>
    (List.mem_append.mp hmem).elim (hold c) (hmore c)
  -- a close by nobody's timeout event is the close of no open
  have hnobody {owner : Option Owner} {closer : Closer} (howner : owner = some .handle ∨ owner = some .other)
      (hcloser : closer = .handleCode ∨ closer = .other) :
      closedOpen ⟨owner, closer⟩ = (closerKey ⟨owner, closer⟩).bind (openedBy s'.sent) := by
    rcases howner with rfl | rfl <;> rcases hcloser with rfl | rfl <;> rfl
  cases hc with
  | @pipeFailed fd hpc =>
    have hmem : (fd, Owner.handle) ∈ s.claims := by
      unfold claims
      rw [hpc]
      exact List.mem_append_right _ (List.mem_append_left _ (List.mem_singleton.mpr rfl))
    exact happend (List.forall_mem_singleton.mpr (hnobody (.inl (hclaimed.owned _ hmem)) (.inl rfl)))
  | @timeoutRequest key fd hpc =>
    obtain ⟨n, hopened, hperm⟩ := claims_timeout hopening hmailbox hpc
    have howner : s.fds fd = some (.timed n) := hclaimed.owned _ (hperm.symm.subset List.mem_cons_self)
    refine happend (List.forall_mem_singleton.mpr ?_)
    show closedOpen ⟨s.fds fd, .timeoutEvent key⟩ = openedBy s.sent key
    rw [howner, hopened]
    rfl
  | @hangup context hpc hc =>
    have hperm := hclaimed.perm (claims_hangup hc)
    have howner : s.fds context.handle = some .handle := hperm.owned _ List.mem_cons_self
    have howner' : Function.update s.fds context.handle none context.fd = some .handle :=
      hperm.release.owned _ List.mem_cons_self
    unfold close
    dsimp only
    rw [List.append_assoc]
    exact happend (List.forall_mem_cons.mpr ⟨hnobody (.inl howner) (.inl rfl),
      List.forall_mem_singleton.mpr (hnobody (.inl howner') (.inl rfl))⟩)
  | otherClose howner => exact happend (List.forall_mem_singleton.mpr (hnobody (.inr howner) (.inr rfl)))
  | _ => exact hold

/-! ## The invariant -/

structure Inv (s : Poker) : Prop where
  mKey : s.mKey = s.sent.length % 2 ^ 32
  mailbox : s.mailbox.Inv
  opening : Opening s
  claimed : Claimed s.fds s.claims
  closed : Closed s
  alive : s.pc ≠ .crashed

theorem inv_start (fds : Nat → Bool) : Inv (start fds) where
  mKey := rfl
  mailbox := Mailbox.inv_empty
  opening := ⟨.nil, fun _ h => absurd h List.not_mem_nil, fun _ _ _ h => (by cases h),
    fun _ h => absurd h List.not_mem_nil⟩
  claimed := .nil _
  closed := ⟨fun _ h => absurd h List.not_mem_nil, rfl⟩
  alive := fun h => by cases h

/-- The event of a message that comes is there. -/
theorem Inv.not_lost (h : Inv s) : ¬ s.Lost := by
  rintro ⟨key, hpc, hnone⟩
  obtain ⟨e, he⟩ := h.mailbox.received (mailbox_held hpc)
  cases hnone.symm.trans he

theorem Inv.change (h : Inv s) (hsent : s.sent.length < 2 ^ 32) (hc : Change s s') : Inv s' := by
  have hkey : s.mKey = s.sent.length := h.mKey.trans (Nat.mod_eq_of_lt hsent)
  refine ⟨mKey_change hc h.mKey, ?_, h.opening.change hc, claimed_change hc h.mailbox h.opening hkey h.claimed,
    ⟨closed_own_change hc h.mailbox h.opening h.claimed h.closed, closed_keys_change hc h.closed.keys⟩, ?_⟩
  · rcases mailbox_change hc hkey with heq | hstep
    · exact heq ▸ h.mailbox
    · exact h.mailbox.step hstep
  · cases hc with
    | push | tick | hangup | otherOpen | otherClose => exact h.alive
    | _ => exact fun hcrash => nomatch hcrash

/-- **Step.** -/
theorem Inv.next (h : Inv s) (hsent : s.sent.length < 2 ^ 32) {a : PokerAction} (ha : s.next a = some s') :
    Change s s' ∧ Inv s' := by
  rcases change_of_next ha with hlost | hc
  · exact absurd hlost h.not_lost
  · exact ⟨hc, h.change hsent hc⟩

end Poker

end MochaHal.Power
