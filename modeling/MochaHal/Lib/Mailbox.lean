import Mathlib.Tactic.Common
import Mathlib.Logic.Function.Basic
import Mathlib.Data.List.Perm.Basic
import Mathlib.Order.Lattice

/-! Events that wait in a table for messages with their keys.  Anyone posts; one reader takes
the messages in any order, takes the event of a message out of the table and runs it.
`Mailbox.Inv` says that an event is in one place, and `eventually_ran` that it is run when
its message comes and the reader goes on. -/

namespace MochaHal

/-- What the reader holds: nothing, a message, or an event that it took out. -/
inductive InHand (E : Type)
  | nothing
  | received (key : Nat)
  | running (key : Nat) (e : E)

structure Mailbox (E : Type) where
  table : Nat → Option E
  messages : List Nat
  held : InHand E
  sent : List E
  ran : List (Nat × E)

namespace Mailbox

variable {E : Type}

def empty : Mailbox E := ⟨fun _ => none, [], .nothing, [], []⟩

/-- A key is the number of events that were sent before. -/
inductive Step : Mailbox E → Mailbox E → Prop
  | post (m : Mailbox E) (e : E) :
    Step m { m with
      table := Function.update m.table m.sent.length (some e)
      messages := m.messages ++ [m.sent.length]
      sent := m.sent ++ [e] }
  | deliver (m : Mailbox E) {key : Nat} {rest : List Nat} (hheld : m.held = .nothing)
    (hmessages : m.messages.Perm (key :: rest)) : Step m { m with messages := rest, held := .received key }
  | take (m : Mailbox E) {key : Nat} {e : E} (hheld : m.held = .received key) (hevent : m.table key = some e) :
    Step m { m with table := Function.update m.table key none, held := .running key e }
  | run (m : Mailbox E) {key : Nat} {e : E} (hheld : m.held = .running key e) :
    Step m { m with ran := m.ran ++ [(key, e)], held := .nothing }

def receivedKeys : InHand E → List Nat
  | .received key => [key]
  | _ => []

def runningKeys : InHand E → List Nat
  | .running key _ => [key]
  | _ => []

theorem held_of_received {held : InHand E} {key : Nat} (h : key ∈ receivedKeys held) : held = .received key := by
  cases held with
  | received key' => rw [List.mem_singleton.mp h]
  | _ => cases h

theorem held_of_running {held : InHand E} {key : Nat} (h : key ∈ runningKeys held) : ∃ e, held = .running key e := by
  cases held with
  | running key' e => exact ⟨e, by rw [List.mem_singleton.mp h]⟩
  | _ => cases h

/-- The keys whose events are still in the table. -/
def outstanding (m : Mailbox E) : List Nat := m.messages ++ receivedKeys m.held

/-- The keys whose events were not run. -/
def waiting (m : Mailbox E) : List Nat := m.outstanding ++ runningKeys m.held

/-- An event is in one place: it waits, or it was run. -/
structure Inv (m : Mailbox E) : Prop where
  places : (m.waiting ++ m.ran.map Prod.fst).Perm (List.range m.sent.length)
  table : ∀ key e, m.table key = some e ↔ key ∈ m.outstanding ∧ m.sent[key]? = some e
  running : ∀ key e, m.held = .running key e → m.sent[key]? = some e
  ran : ∀ p ∈ m.ran, m.sent[p.1]? = some p.2

theorem inv_empty : Inv (empty : Mailbox E) :=
  ⟨.nil, fun _ _ => ⟨fun h => (by cases h), fun h => absurd h.1 List.not_mem_nil⟩, fun _ _ h => (by cases h),
    fun _ h => absurd h List.not_mem_nil⟩

variable {m m' : Mailbox E} {key : Nat} {e : E}

theorem Inv.nodup (h : Inv m) : (m.waiting ++ m.ran.map Prod.fst).Nodup := h.places.nodup_iff.mpr List.nodup_range

theorem Inv.lt_of_waiting (h : Inv m) (hkey : key ∈ m.waiting) : key < m.sent.length :=
  List.mem_range.mp (h.places.subset (List.mem_append_left _ hkey))

theorem Inv.lt_of_ran (h : Inv m) (hkey : key ∈ m.ran.map Prod.fst) : key < m.sent.length :=
  List.mem_range.mp (h.places.subset (List.mem_append_right _ hkey))

theorem Inv.waiting_or_ran (h : Inv m) (hkey : key < m.sent.length) :
    key ∈ m.waiting ∨ key ∈ m.ran.map Prod.fst :=
  List.mem_append.mp (h.places.symm.subset (List.mem_range.mpr hkey))

/-- What is received is there. -/
theorem Inv.received (h : Inv m) (hheld : m.held = .received key) : ∃ e, m.table key = some e := by
  have hmem : key ∈ m.outstanding := by
    unfold outstanding
    rw [hheld]
    exact List.mem_append_right _ (List.mem_singleton.mpr rfl)
  have hlt : key < m.sent.length := h.lt_of_waiting (List.mem_append_left _ hmem)
  exact ⟨m.sent[key], (h.table key _).mpr ⟨hmem, List.getElem?_eq_getElem hlt⟩⟩

/-- What was sent stays. -/
theorem sent_append {key : Nat} (hkey : key < m.sent.length) (e : E) : (m.sent ++ [e])[key]? = m.sent[key]? :=
  List.getElem?_append_left hkey

theorem Inv.post (h : Inv m) (e : E) :
    Inv { m with
      table := Function.update m.table m.sent.length (some e)
      messages := m.messages ++ [m.sent.length]
      sent := m.sent ++ [e] } := by
  refine ⟨?_, fun key e' => ?_, fun key e' hheld => ?_, fun p hp => ?_⟩
  · rw [List.perm_iff_count]
    intro key
    have hplaces := List.perm_iff_count.mp h.places key
    unfold waiting outstanding at hplaces ⊢
    simp only [List.count_append, List.length_append, List.length_singleton, List.range_succ] at hplaces ⊢
    omega
  · unfold outstanding
    dsimp only
    rw [List.mem_append, List.mem_append, List.mem_singleton]
    by_cases hkey : key = m.sent.length
    · have hlast : (m.sent ++ [e])[key]? = some e := by
        rw [hkey, List.getElem?_append_right (Nat.le_refl _), Nat.sub_self]
        rfl
      rw [hlast, hkey, Function.update_self]
      exact (and_iff_right (.inl (.inr rfl))).symm
    · rw [Function.update_of_ne hkey, h.table]
      unfold outstanding
      rw [List.mem_append, or_iff_left hkey]
      refine and_congr_right fun hmem => ?_
      rw [sent_append (h.lt_of_waiting (List.mem_append_left _ (List.mem_append.mpr hmem)))]
  · have hsome := h.running key e' hheld
    exact (sent_append (List.getElem?_eq_some_iff.mp hsome).1 e).trans hsome
  · have hsome := h.ran p hp
    exact (sent_append (List.getElem?_eq_some_iff.mp hsome).1 e).trans hsome

theorem waiting_deliver {rest : List Nat} (hheld : m.held = .nothing) (hmessages : m.messages.Perm (key :: rest)) :
    { m with messages := rest, held := .received key }.waiting.Perm m.waiting := by
  rw [List.perm_iff_count] at hmessages ⊢
  intro key'
  have hcount := hmessages key'
  unfold waiting outstanding
  rw [hheld]
  simp only [receivedKeys, runningKeys, List.count_append, List.count_cons, List.count_nil] at hcount ⊢
  omega

theorem waiting_take (hheld : m.held = .received key) (table : Nat → Option E) :
    { m with table, held := .running key e }.waiting = m.waiting := by
  unfold waiting outstanding
  rw [hheld]
  simp [receivedKeys, runningKeys]

theorem waiting_run (hheld : m.held = .running key e) (ran : List (Nat × E)) :
    m.waiting.Perm (key :: { m with ran, held := .nothing }.waiting) := by
  rw [List.perm_iff_count]
  intro key'
  unfold waiting outstanding
  rw [hheld]
  simp only [receivedKeys, runningKeys, List.count_append, List.count_cons, List.count_nil]
  omega

theorem Inv.deliver (h : Inv m) {rest : List Nat} (hheld : m.held = .nothing)
    (hmessages : m.messages.Perm (key :: rest)) : Inv { m with messages := rest, held := .received key } := by
  have hmem (key' : Nat) : key' ∈ rest ++ [key] ↔ key' ∈ m.outstanding := by
    unfold outstanding
    rw [hheld, List.mem_append, List.mem_append, hmessages.mem_iff, List.mem_singleton, List.mem_cons]
    exact ⟨fun h => .inl h.symm, fun h => h.elim Or.symm fun h => absurd h List.not_mem_nil⟩
  refine ⟨?_, fun key' e => ?_, fun key e hrun => (by cases hrun), h.ran⟩
  · exact ((waiting_deliver hheld hmessages).append_right _).trans h.places
  · exact (h.table key' e).trans (and_congr_left fun _ => (hmem key').symm)

theorem Inv.take (h : Inv m) (hheld : m.held = .received key) (hevent : m.table key = some e) :
    Inv { m with table := Function.update m.table key none, held := .running key e } := by
  have hfresh : key ∉ m.messages := by
    have hnodup := (List.nodup_append.mp (List.nodup_append.mp h.nodup).1).1
    unfold outstanding at hnodup
    rw [hheld] at hnodup
    exact fun hmem => (List.nodup_append.mp hnodup).2.2 key hmem key (List.mem_singleton.mpr rfl) rfl
  refine ⟨?_, fun key' e' => ?_, fun key' e' hrun => ?_, h.ran⟩
  · rw [waiting_take hheld]
    exact h.places
  · unfold outstanding receivedKeys
    dsimp only
    rw [List.append_nil]
    by_cases hkey : key' = key
    · rw [hkey, Function.update_self]
      exact iff_of_false (fun h => nomatch h) fun hmem => hfresh hmem.1
    · rw [Function.update_of_ne hkey, h.table]
      unfold outstanding
      rw [hheld, List.mem_append, receivedKeys, List.mem_singleton, or_iff_left hkey]
  · obtain ⟨rfl, rfl⟩ := InHand.running.inj hrun
    exact ((h.table key e).mp hevent).2

theorem Inv.run (h : Inv m) (hheld : m.held = .running key e) :
    Inv { m with ran := m.ran ++ [(key, e)], held := .nothing } := by
  refine ⟨?_, fun key' e' => ?_, fun key' e' hrun => (by cases hrun), fun p hp => ?_⟩
  · have hplaces := h.places
    have hwaiting := waiting_run hheld (m.ran ++ [(key, e)])
    rw [List.perm_iff_count] at hplaces hwaiting ⊢
    intro key'
    have hplaces := hplaces key'
    have hwaiting := hwaiting key'
    simp only [List.count_append, List.map_append, List.map_cons, List.map_nil, List.count_cons,
      List.count_nil] at hplaces hwaiting ⊢
    omega
  · have htable := h.table key' e'
    unfold outstanding at htable ⊢
    rwa [hheld] at htable
  · rcases List.mem_append.mp hp with hp | hp
    · exact h.ran p hp
    · rw [List.mem_singleton.mp hp]
      exact h.running key e hheld

/-- **Step.** -/
theorem Inv.step (h : Inv m) (hs : Step m m') : Inv m' := by
  cases hs with
  | post e => exact h.post e
  | deliver hheld hmessages => exact h.deliver hheld hmessages
  | take hheld hevent => exact h.take hheld hevent
  | run hheld => exact h.run hheld

/-! ## Runs that do not stop -/

/-- The last time before something ceases to hold. -/
theorem exists_last {P : Nat → Prop} {t u : Nat} (htu : t ≤ u) (ht : P t) (hu : ¬ P u) :
    ∃ v, t ≤ v ∧ P v ∧ ¬ P (v + 1) := by
  induction u with
  | zero =>
    obtain rfl := Nat.le_zero.mp htu
    exact absurd ht hu
  | succ u ih =>
    by_cases hP : P u
    · rcases Nat.lt_or_ge u t with hlt | hle
      · obtain rfl := Nat.le_antisymm htu hlt
        exact absurd ht hu
      · exact ⟨u, hle, hP, hu⟩
    · rcases Nat.lt_or_ge u t with hlt | hle
      · obtain rfl := Nat.le_antisymm htu hlt
        exact absurd ht hu
      · exact ih hle hP

theorem Step.leaves_messages (hs : Step m m') (hkey : key ∈ m.messages) (hgone : key ∉ m'.messages) :
    m'.held = .received key := by
  cases hs with
  | post e => exact absurd (List.mem_append_left _ hkey) hgone
  | deliver hheld hmessages =>
    rcases List.mem_cons.mp (hmessages.subset hkey) with rfl | hrest
    · rfl
    · exact absurd hrest hgone
  | take | run => exact absurd hkey hgone

theorem Step.leaves_received (hs : Step m m') (hheld : m.held = .received key) (hgone : m'.held ≠ .received key) :
    ∃ e, m'.held = .running key e := by
  cases hs with
  | post e => exact absurd hheld hgone
  | deliver hnothing => cases hheld.symm.trans hnothing
  | take hreceived hevent =>
    obtain rfl := InHand.received.inj (hheld.symm.trans hreceived)
    exact ⟨_, rfl⟩
  | run hrunning => cases hheld.symm.trans hrunning

theorem Step.leaves_running (hs : Step m m') (hheld : m.held = .running key e) (hgone : m'.held ≠ .running key e) :
    key ∈ m'.ran.map Prod.fst := by
  cases hs with
  | post e => exact absurd hheld hgone
  | deliver hnothing => cases hheld.symm.trans hnothing
  | take hreceived => cases hheld.symm.trans hreceived
  | run hrunning =>
    obtain ⟨rfl, rfl⟩ := InHand.running.inj (hheld.symm.trans hrunning)
    simp

section

variable {run : Nat → Mailbox E} (hstep : ∀ t, run (t + 1) = run t ∨ Step (run t) (run (t + 1)))

include hstep

/-- A step ends what ceases to hold. -/
theorem exists_step {P : Mailbox E → Prop} {t u : Nat} (htu : t ≤ u) (ht : P (run t)) (hu : ¬ P (run u)) :
    ∃ v, t ≤ v ∧ P (run v) ∧ ¬ P (run (v + 1)) ∧ Step (run v) (run (v + 1)) := by
  obtain ⟨v, htv, hv, hgone⟩ := exists_last (P := fun t => P (run t)) htu ht hu
  rcases hstep v with hsame | hs
  · exact absurd (hsame ▸ hv) hgone
  · exact ⟨v, htv, hv, hgone, hs⟩

variable (hproceeds : ∀ t, (run t).held ≠ .nothing → ∃ u, t ≤ u ∧ (run u).held ≠ (run t).held)

include hproceeds

theorem eventually_ran_of_running {t : Nat} (hheld : (run t).held = .running key e) :
    ∃ u, t ≤ u ∧ key ∈ (run u).ran.map Prod.fst := by
  obtain ⟨u, htu, hchange⟩ := hproceeds t (by rw [hheld]; exact fun h => nomatch h)
  rw [hheld] at hchange
  obtain ⟨v, htv, hv, hgone, hs⟩ := exists_step hstep (P := fun m => m.held = .running key e) htu hheld hchange
  exact ⟨v + 1, Nat.le_succ_of_le htv, hs.leaves_running hv hgone⟩

theorem eventually_ran_of_received {t : Nat} (hheld : (run t).held = .received key) :
    ∃ u, t ≤ u ∧ key ∈ (run u).ran.map Prod.fst := by
  obtain ⟨u, htu, hchange⟩ := hproceeds t (by rw [hheld]; exact fun h => nomatch h)
  rw [hheld] at hchange
  obtain ⟨v, htv, hv, hgone, hs⟩ := exists_step hstep (P := fun m => m.held = .received key) htu hheld hchange
  obtain ⟨e, he⟩ := hs.leaves_received hv hgone
  obtain ⟨w, hvw, hw⟩ := eventually_ran_of_running hstep hproceeds he
  exact ⟨w, (Nat.le_succ_of_le htv).trans hvw, hw⟩

variable (hdelivers : ∀ t, ∀ key ∈ (run t).messages, ∃ u, t ≤ u ∧ key ∉ (run u).messages)

include hdelivers

theorem eventually_ran_of_message {t : Nat} (hmessage : key ∈ (run t).messages) :
    ∃ u, t ≤ u ∧ key ∈ (run u).ran.map Prod.fst := by
  obtain ⟨u, htu, hgone⟩ := hdelivers t key hmessage
  obtain ⟨v, htv, hv, hgone, hs⟩ := exists_step hstep (P := fun m => key ∈ m.messages) htu hmessage hgone
  obtain ⟨w, hvw, hw⟩ := eventually_ran_of_received hstep hproceeds (hs.leaves_messages hv hgone)
  exact ⟨w, (Nat.le_succ_of_le htv).trans hvw, hw⟩

/-- **Run.** A message that comes and a reader that goes on run every event. -/
theorem eventually_ran (hinv : ∀ t, Inv (run t)) {t : Nat} (hkey : key < (run t).sent.length) :
    ∃ u, t ≤ u ∧ key ∈ (run u).ran.map Prod.fst := by
  rcases (hinv t).waiting_or_ran hkey with hwaiting | hran
  · rcases List.mem_append.mp hwaiting with hout | hrun
    · rcases List.mem_append.mp hout with hmessage | hreceive
      · exact eventually_ran_of_message hstep hproceeds hdelivers hmessage
      · exact eventually_ran_of_received hstep hproceeds (held_of_received hreceive)
    · obtain ⟨e, he⟩ := held_of_running hrun
      exact eventually_ran_of_running hstep hproceeds he
  · exact ⟨t, Nat.le_refl t, hran⟩

end

end Mailbox

end MochaHal
