import MochaHal.Power.TimeoutPoker
import MochaHal.Lib.Entries
import MochaHal.Lib.Reach

/-! Runs of the poker.  Every event is run once and every descriptor of `openPmQosTimed` is
closed once, by its own timeout event (`timed_requests_released`). -/

namespace MochaHal.Power

namespace Poker

/-! ## What is accounted for -/

/-- The event that was sent under a key. -/
def eventOf (s : Poker) (key : Nat) : Option QueuedEvent := s.sent[key]?.map Sent.event

/-- The timeout event with this key is that of an open: it has its descriptor and is sent with
the timeout of its request. -/
def OwnTimeout (s : Poker) (n key : Nat) : Prop :=
  ∃ o, s.opens[n]? = some o ∧ s.sent[key]? = some ⟨.timeout o.fd, o.timeout, some n⟩

/-- Events and descriptors are accounted for.  The outstanding keys are those of the messages,
and of the message that the looper thread has in `handleMessage` before `removeEventByKey`. -/
structure Accounted (s : Poker) : Prop where
  alive : s.pc ≠ .crashed
  queued : ∀ key e, s.mQueuedEvents key = some e ↔ key ∈ s.mailbox.outstanding ∧ s.eventOf key = some e
  run_once : (s.mailbox.waiting ++ s.ran.map Prod.fst).Nodup
  own_event : ∀ p ∈ s.ran, s.eventOf p.1 = some p.2
  own_open : ∀ o ∈ s.opens, (o.key, QueuedEvent.request (.timed o.node o.value o.timeout)) ∈ s.ran
  one_timeout : ∀ n key key', OwnTimeout s n key → OwnTimeout s n key' → key = key'
  own_close : ∀ c ∈ s.closes, ∀ n, c.owner = some (.timed n) →
    ∃ key, OwnTimeout s n key ∧ c.closer = .timeoutEvent key
  close_own : ∀ c ∈ s.closes, ∀ key, c.closer = .timeoutEvent key →
    ∃ n, OwnTimeout s n key ∧ c.owner = some (.timed n)
  close_once : (s.closes.filterMap closedOpen).Nodup

variable {s s' : Poker}

theorem openedBy_of_own {n key : Nat} (h : OwnTimeout s n key) : openedBy s.sent key = some n := by
  obtain ⟨o, _, hsent⟩ := h
  unfold openedBy
  rw [hsent]
  rfl

theorem Inv.own_of_openedBy (h : Inv s) {n key : Nat} (hkey : openedBy s.sent key = some n) : OwnTimeout s n key := by
  obtain ⟨⟨event, delay, opened⟩, hx, rfl⟩ := Option.bind_eq_some_iff.mp hkey
  obtain ⟨o, ho, rfl, rfl⟩ := h.opening.sent _ (List.mem_of_getElem? hx)
  exact ⟨o, ho, hx⟩

theorem own_mono (h : Grows s s') {n key : Nat} (hown : OwnTimeout s n key) : OwnTimeout s' n key := by
  obtain ⟨o, ho, hsent⟩ := hown
  obtain ⟨moreOpens, hopens⟩ := h.opens
  obtain ⟨moreSent, hsents⟩ := h.sent
  refine ⟨o, ?_, ?_⟩
  · rw [← hopens, List.getElem?_append_left (List.getElem?_eq_some_iff.mp ho).1, ho]
  · rw [← hsents, List.getElem?_append_left (List.getElem?_eq_some_iff.mp hsent).1, hsent]

theorem closedOpen_eq {c : Closing} {n : Nat} : closedOpen c = some n ↔ c.owner = some (.timed n) := by
  unfold closedOpen
  split
  next m howner => rw [howner, Option.some.injEq, Option.some.injEq, Owner.timed.injEq]
  next hother => exact ⟨fun h => (by cases h), fun h => absurd h (hother n)⟩

theorem closerKey_eq {c : Closing} {key : Nat} : closerKey c = some key ↔ c.closer = .timeoutEvent key := by
  unfold closerKey
  split
  next key' hcloser => rw [hcloser, Option.some.injEq, Closer.timeoutEvent.injEq]
  next hother => exact ⟨fun h => (by cases h), fun h => absurd h (hother key)⟩

/-- A close of an open is that of its timeout event. -/
theorem Inv.close_iff (h : Inv s) {c : Closing} (hc : c ∈ s.closes) {n : Nat} :
    c.owner = some (.timed n) ↔ ∃ key, OwnTimeout s n key ∧ c.closer = .timeoutEvent key := by
  rw [← closedOpen_eq, h.closed.own c hc, Option.bind_eq_some_iff]
  refine exists_congr fun key => ?_
  rw [closerKey_eq]
  exact ⟨fun ⟨hcloser, hopened⟩ => ⟨h.own_of_openedBy hopened, hcloser⟩,
    fun ⟨hown, hcloser⟩ => ⟨hcloser, openedBy_of_own hown⟩⟩

theorem timeoutKeys_sublist (ran : List (Nat × QueuedEvent)) :
    (ran.filterMap timeoutKey).Sublist (ran.map Prod.fst) := by
  induction ran with
  | nil => exact .slnil
  | cons p ran ih =>
    rw [List.filterMap_cons]
    cases hkey : timeoutKey p with
    | none => exact ih.cons _
    | some key =>
      obtain ⟨rfl, _⟩ := timeoutKey_eq.mp hkey
      exact ih.cons_cons _

/-- What closes for a timeout event is that of an open. -/
theorem Inv.own_of_closer (h : Inv s) {c : Closing} (hc : c ∈ s.closes) {key : Nat}
    (hcloser : c.closer = .timeoutEvent key) : ∃ n, OwnTimeout s n key := by
  have hmem : key ∈ s.ran.filterMap timeoutKey := by
    rw [← h.closed.keys]
    exact List.mem_filterMap.mpr ⟨c, hc, closerKey_eq.mpr hcloser⟩
  obtain ⟨p, hp, hkey⟩ := List.mem_filterMap.mp hmem
  obtain ⟨rfl, fd, hevent⟩ := timeoutKey_eq.mp hkey
  obtain ⟨n, o, hsent, ho, rfl⟩ := h.opening.of_timeout ((h.mailbox.ran p hp).trans (congrArg some hevent))
  exact ⟨n, o, ho, hsent⟩

theorem Inv.close_once (h : Inv s) : (s.closes.filterMap closedOpen).Nodup := by
  have hkeys : (s.closes.filterMap closerKey).Nodup := by
    rw [h.closed.keys]
    exact (List.nodup_append.mp h.mailbox.nodup).2.1.sublist (timeoutKeys_sublist s.ran)
  have hopens : s.closes.filterMap closedOpen = (s.closes.filterMap closerKey).filterMap (openedBy s.sent) := by
    rw [List.filterMap_filterMap]
    exact List.filterMap_congr h.closed.own
  rw [hopens]
  exact hkeys.filterMap fun key key' n hkey hkey' => h.opening.openedBy_inj hkey hkey'

theorem Inv.accounted (h : Inv s) : Accounted s where
  alive := h.alive
  queued := by
    intro key e
    unfold eventOf
    rw [← List.getElem?_map]
    exact h.mailbox.table key e
  run_once := h.mailbox.nodup
  own_event := by
    intro p hp
    unfold eventOf
    rw [← List.getElem?_map]
    exact h.mailbox.ran p hp
  own_open := h.opening.own
  one_timeout := fun n key key' hkey hkey' => h.opening.openedBy_inj (openedBy_of_own hkey) (openedBy_of_own hkey')
  own_close := fun c hc n howner => (h.close_iff hc).mp howner
  close_own := by
    intro c hc key hcloser
    obtain ⟨n, hown⟩ := h.own_of_closer hc hcloser
    exact ⟨n, hown, (h.close_iff hc).mpr ⟨key, hown, hcloser⟩⟩
  close_once := h.close_once

/-! ## Runs that do not stop -/

/-- A run, with descriptors that are open before. -/
structure IsRun (state : Nat → Poker) : Prop where
  start : ∃ fds, state 0 = Poker.start fds
  next : ∀ t, ∃ a, (state t).next a = some (state (t + 1))

/-- The looper delivers each message, and its thread goes on. -/
structure Fair (state : Nat → Poker) : Prop where
  delivers : ∀ t, ∀ m ∈ (state t).messages, ∃ u, t ≤ u ∧ m ∉ (state u).messages
  proceeds : ∀ t, (state t).pc ≠ .idle → ∃ u, t ≤ u ∧ (state u).pc ≠ (state t).pc

/-- `openPmQosTimed` is left with a timeout event. -/
theorem Change.leaves_opened (hc : Change s s') {n fd : Nat} {timeout : Int} (hpc : s.pc = .opened n fd timeout)
    (hgone : s'.pc ≠ .opened n fd timeout) : n ∈ s'.sent.filterMap Sent.opened := by
  cases hc with
  | @send n' fd' timeout' hpc' =>
    obtain ⟨rfl, _, _⟩ := LooperPc.opened.inj (hpc.symm.trans hpc')
    exact List.mem_filterMap.mpr ⟨_, List.mem_append_right _ (List.mem_singleton.mpr rfl), rfl⟩
  | push | tick | otherOpen | otherClose => exact absurd hpc hgone
  | deliver hpc' | removeEvent hpc' | openFailed hpc' | openTimed hpc' | openHandle hpc' | pipeFailed hpc'
  | pipe hpc' | timeoutRequest hpc' | hangup hpc' => cases hpc.symm.trans hpc'

/-- What the looper holds says where it is. -/
theorem pc_of_held {pc pc' : LooperPc} (h : heldOf pc' = heldOf pc) (hheld : heldOf pc ≠ .nothing) : pc' = pc := by
  cases pc with
  | received key =>
    cases pc' with
    | received key' => rw [InHand.received.inj h]
    | _ => cases h
  | running key e =>
    cases pc' with
    | running key' e' =>
      obtain ⟨rfl, rfl⟩ := InHand.running.inj h
      rfl
    | _ => cases h
  | _ => exact absurd rfl hheld

theorem Fair.held {state : Nat → Poker} (h : Fair state) (t : Nat) (hheld : (state t).mailbox.held ≠ .nothing) :
    ∃ u, t ≤ u ∧ (state u).mailbox.held ≠ (state t).mailbox.held := by
  have hpc : (state t).pc ≠ .idle := by
    intro hidle
    apply hheld
    unfold mailbox
    rw [hidle]
    rfl
  obtain ⟨u, htu, hchange⟩ := h.proceeds t hpc
  exact ⟨u, htu, fun hsame => hchange (pc_of_held hsame hheld)⟩

section

variable {state : Nat → Poker} (hrun : IsRun state) (hsent : ∀ t, (state t).sent.length < 2 ^ 31)

include hrun hsent

/-- **Run.** -/
theorem inv_run (t : Nat) : Inv (state t) := by
  induction t with
  | zero =>
    obtain ⟨fds, hstart⟩ := hrun.start
    exact hstart ▸ inv_start fds
  | succ t ih =>
    obtain ⟨a, ha⟩ := hrun.next t
    exact (ih.next ((hsent t).trans (by decide)) ha).2

theorem change_run (t : Nat) : Change (state t) (state (t + 1)) := by
  obtain ⟨a, ha⟩ := hrun.next t
  exact ((inv_run hrun hsent t).next ((hsent t).trans (by decide)) ha).1

theorem mKey_run (t : Nat) : (state t).mKey = (state t).sent.length :=
  (inv_run hrun hsent t).mKey.trans (Nat.mod_eq_of_lt ((hsent t).trans (by decide)))

theorem grows_run {t u : Nat} (htu : t ≤ u) : Grows (state t) (state u) := by
  induction u, htu using Nat.le_induction with
  | base => exact .refl _
  | succ u _ ih => exact ih.trans (change_run hrun hsent u).grows

/-- A message whose key was used before was there before. -/
theorem messages_run {t u : Nat} (htu : t ≤ u) {m : Message} (hm : m ∈ (state u).messages)
    (hold : m.what < (state t).sent.length) : m ∈ (state t).messages := by
  induction u, htu using Nat.le_induction with
  | base => exact hm
  | succ u htu ih =>
    have hkey := mKey_run hrun hsent u
    have hlt : m.what < (state u).sent.length :=
      Nat.lt_of_lt_of_le hold (grows_run hrun hsent htu).sent.length_le
    have hnew {due : Int} (hm : m ∈ (state u).messages ++ [⟨(state u).mKey, due⟩]) :
        m ∈ (state u).messages := by
      rcases List.mem_append.mp hm with hm | hm
      · exact hm
      · rw [List.mem_singleton.mp hm, hkey] at hlt
        exact absurd hlt (Nat.lt_irrefl _)
    refine ih ?_
    have hc := change_run hrun hsent u
    generalize state (u + 1) = next at hc hm
    cases hc with
    | push | send => exact hnew hm
    | deliver => exact List.mem_of_mem_erase hm
    | _ => exact hm

variable (hfair : Fair state)

include hfair

theorem eventually_delivered (t : Nat) {key : Nat} (hkey : key ∈ (state t).mailbox.messages) :
    ∃ u, t ≤ u ∧ key ∉ (state u).mailbox.messages := by
  have hinv := (inv_run hrun hsent t).mailbox
  have hlt : key < (state t).sent.length := by
    rw [← length_mailbox_sent]
    exact hinv.lt_of_waiting (List.mem_append_left _ (List.mem_append_left _ hkey))
  have hnodup : ((state t).messages.map Message.what).Nodup :=
    (List.nodup_append.mp (List.nodup_append.mp (List.nodup_append.mp hinv.nodup).1).1).1
  obtain ⟨m, hm, rfl⟩ := List.mem_map.mp hkey
  obtain ⟨u, htu, hgone⟩ := hfair.delivers t m hm
  refine ⟨u, htu, fun hstill => ?_⟩
  obtain ⟨m', hm', hsame⟩ := List.mem_map.mp hstill
  have hm't : m' ∈ (state t).messages := messages_run hrun hsent htu hm' (hsame ▸ hlt)
  obtain rfl := List.inj_on_of_nodup_map hnodup hm't hm hsame
  exact hgone hm'

theorem eventually_ran {t key : Nat} (hkey : key < (state t).sent.length) :
    ∃ u, t ≤ u ∧ key ∈ (state u).ran.map Prod.fst := by
  have hlt : key < (state t).mailbox.sent.length := (length_mailbox_sent (state t)).symm ▸ hkey
  exact Mailbox.eventually_ran (fun t => mailbox_change (change_run hrun hsent t) (mKey_run hrun hsent t)) hfair.held
    (fun t key hkey => eventually_delivered hrun hsent hfair t hkey) (fun t => (inv_run hrun hsent t).mailbox) hlt

/-- Every event is run, and once. -/
theorem event_runs {t key : Nat} {e : QueuedEvent} (hkey : (state t).eventOf key = some e) :
    ∃ u, ∀ v, u ≤ v → (state v).ran.filter (fun p => p.1 = key) = [(key, e)] := by
  have hlt : key < (state t).sent.length := by
    obtain ⟨x, hx, _⟩ := Option.map_eq_some_iff.mp hkey
    exact (List.getElem?_eq_some_iff.mp hx).1
  obtain ⟨u, htu, hran⟩ := eventually_ran hrun hsent hfair hlt
  refine ⟨u, fun v huv => ?_⟩
  have hinv := inv_run hrun hsent v
  obtain ⟨p, hp, rfl⟩ := List.mem_map.mp hran
  have hp' : p ∈ (state v).ran := (grows_run hrun hsent huv).ran.subset hp
  have hevent : p.2 = e := by
    have hnow := hinv.accounted.own_event p hp'
    obtain ⟨more, hmore⟩ := (grows_run hrun hsent (htu.trans huv)).sent
    unfold eventOf at hkey hnow
    rw [← hmore, List.getElem?_append_left hlt, hkey] at hnow
    exact (Option.some.inj hnow).symm
  have hnodup : ((state v).ran.filterMap fun p => some p.1).Nodup := by
    rw [List.filterMap_eq_map']
    exact (List.nodup_append.mp hinv.mailbox.nodup).2.1
  have hfilter := Entries.filter_eq_singleton hnodup hp' rfl
  simp only [Option.some.injEq] at hfilter
  rw [hfilter, ← hevent]

/-- The timeout event of an open is sent. -/
theorem eventually_sent {t n : Nat} {o : Opened} (ho : (state t).opens[n]? = some o) :
    ∃ u key, t ≤ u ∧ OwnTimeout (state u) n key := by
  have hinv := inv_run hrun hsent t
  have hown {u : Nat} (htu : t ≤ u) (hmem : n ∈ (state u).sent.filterMap Sent.opened) :
      ∃ u key, t ≤ u ∧ OwnTimeout (state u) n key := by
    obtain ⟨x, hx, hopened⟩ := List.mem_filterMap.mp hmem
    obtain ⟨key, hkey⟩ := List.mem_iff_getElem?.mp hx
    refine ⟨u, key, htu, (inv_run hrun hsent u).own_of_openedBy ?_⟩
    unfold openedBy
    rw [hkey]
    exact hopened
  have hlt : n ∈ List.range (state t).opens.length := List.mem_range.mpr (List.getElem?_eq_some_iff.mp ho).1
  rcases List.mem_append.mp (hinv.opening.timeouts.symm.subset hlt) with hmem | hpending
  · exact hown (Nat.le_refl t) hmem
  · cases hpc : (state t).pc with
    | opened n' fd timeout =>
      rw [hpc] at hpending
      obtain rfl := List.mem_singleton.mp hpending
      obtain ⟨u, htu, hchange⟩ := hfair.proceeds t (by rw [hpc]; exact fun h => nomatch h)
      rw [hpc] at hchange
      obtain ⟨v, htv, hv, hgone⟩ :=
        Mailbox.exists_last (P := fun t => (state t).pc = .opened n fd timeout) htu hpc hchange
      exact hown (Nat.le_succ_of_le htv) ((change_run hrun hsent v).leaves_opened hv hgone)
    | _ =>
      rw [hpc] at hpending
      cases hpending

/-- Every descriptor is closed, and once, by its own timeout event. -/
theorem open_closes {t n : Nat} {o : Opened} (ho : (state t).opens[n]? = some o) :
    ∃ u key, ∀ v, u ≤ v → OwnTimeout (state v) n key ∧
      (state v).closes.filter (fun c => c.owner = some (.timed n)) = [⟨some (.timed n), .timeoutEvent key⟩] := by
  obtain ⟨u, key, _, hown⟩ := eventually_sent hrun hsent hfair ho
  have hlt : key < (state u).sent.length := by
    obtain ⟨_, _, hkey⟩ := hown
    exact (List.getElem?_eq_some_iff.mp hkey).1
  obtain ⟨w, huw, hran⟩ := eventually_ran hrun hsent hfair hlt
  refine ⟨w, key, fun v hwv => ?_⟩
  have hinv := inv_run hrun hsent v
  have hown : OwnTimeout (state v) n key := own_mono (grows_run hrun hsent (huw.trans hwv)) hown
  refine ⟨hown, ?_⟩
  -- the event of the key ran, and what runs for a timeout event closes
  obtain ⟨p, hp, rfl⟩ := List.mem_map.mp hran
  have hp' : p ∈ (state v).ran := (grows_run hrun hsent hwv).ran.subset hp
  obtain ⟨fd, hevent⟩ : ∃ fd, p.2 = .timeout fd := by
    obtain ⟨o', _, hkey⟩ := hown
    have hsame := hinv.accounted.own_event p hp'
    unfold eventOf at hsame
    rw [hkey] at hsame
    exact ⟨o'.fd, (Option.some.inj hsame).symm⟩
  have hclosed : p.1 ∈ (state v).closes.filterMap closerKey := by
    rw [hinv.closed.keys]
    exact List.mem_filterMap.mpr ⟨p, hp', timeoutKey_eq.mpr ⟨rfl, fd, hevent⟩⟩
  obtain ⟨⟨owner, closer⟩, hc, hcloser⟩ := List.mem_filterMap.mp hclosed
  have hcloser := closerKey_eq.mp hcloser
  have howner := (hinv.close_iff hc).mpr ⟨p.1, hown, hcloser⟩
  have hfilter := Entries.filter_eq_singleton hinv.close_once hc (closedOpen_eq.mpr howner)
  simp only [closedOpen_eq] at hfilter
  dsimp only at hcloser howner
  rw [hfilter, howner, hcloser]

end

/-- Each event is run once with its own parameters, and each descriptor of `openPmQosTimed` is
closed once by its own timeout event. -/
theorem timed_requests_released {state : Nat → Poker} (hrun : IsRun state)
    (hsent : ∀ t, (state t).sent.length < 2 ^ 31) :
    (∀ t, Accounted (state t)) ∧
      (Fair state →
        (∀ t key e, (state t).eventOf key = some e →
          ∃ u, ∀ v, u ≤ v → (state v).ran.filter (fun p => p.1 = key) = [(key, e)]) ∧
        ∀ t n o, (state t).opens[n]? = some o → ∃ u key, ∀ v, u ≤ v → OwnTimeout (state v) n key ∧
          (state v).closes.filter (fun c => c.owner = some (.timed n)) = [⟨some (.timed n), .timeoutEvent key⟩]) :=
  ⟨fun t => (inv_run hrun hsent t).accounted, fun hfair =>
    ⟨fun _ _ _ hkey => event_runs hrun hsent hfair hkey, fun _ _ _ ho => open_closes hrun hsent hfair ho⟩⟩

/-- One timed request from its push to the close of its descriptor. -/
def oneRequest : List PokerAction :=
  [.push (.timed "/dev/emc_freq_min" (.value 792000) 1500000000), .deliver ⟨0, 0⟩, .removeEvent, .openNode (some 3),
    .send, .tick 1500000000, .deliver ⟨1, 1500000000⟩, .removeEvent, .timeoutRequest]

def oneRun : Nat → Poker := Reach.replay next (start fun fd => fd < 3) oneRequest

theorem oneRun_isRun : IsRun oneRun where
  start := ⟨_, Reach.replay_zero _ _⟩
  next := by
    have hrest (s : Poker) : s.next (.tick 0) = some s := by simp [next]
    exact Reach.replay_next hrest (by decide)

theorem oneRun_rests (t : Nat) : oneRun (t + 9) = oneRun 9 :=
  Reach.replay_rests (Nat.le_add_left 9 t)

theorem oneRun_fair : Fair oneRun where
  delivers := by
    refine fun t m _ => ⟨t + 9, Nat.le_add_right t 9, ?_⟩
    rw [oneRun_rests]
    exact List.not_mem_nil
  proceeds := by
    refine fun t hpc => ⟨t + 9, Nat.le_add_right t 9, ?_⟩
    rw [oneRun_rests]
    exact hpc.symm

theorem oneRun_sent (t : Nat) : (oneRun t).sent.length < 2 ^ 31 := by
  have hfirst : ∀ t < 9, (oneRun t).sent.length < 2 ^ 31 := by decide
  rcases Nat.lt_or_ge t 9 with hlt | hge
  · exact hfirst t hlt
  · obtain ⟨t, rfl⟩ := Nat.exists_eq_add_of_le' hge
    rw [oneRun_rests]
    decide

theorem timed_requests_released_of_one :
    (∀ t, Accounted (oneRun t)) ∧
      (∃ u, ∀ v, u ≤ v → (oneRun v).ran.filter (fun p => p.1 = 1) = [(1, .timeout 3)]) ∧
      ∃ u key, ∀ v, u ≤ v → OwnTimeout (oneRun v) 0 key ∧
        (oneRun v).closes.filter (fun c => c.owner = some (.timed 0)) = [⟨some (.timed 0), .timeoutEvent key⟩] :=
  have h := timed_requests_released oneRun_isRun oneRun_sent
  ⟨h.1, (h.2 oneRun_fair).1 9 1 (.timeout 3) rfl, (h.2 oneRun_fair).2 9 0 _ rfl⟩

end Poker

end MochaHal.Power
