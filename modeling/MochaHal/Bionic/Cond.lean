import MochaHal.Lib.Reach
import Mathlib.Data.List.Perm.Subperm

/-! The condition variables of `libmocha/bionic/pthread_cond.cpp` over the futexes of the
kernel, under every interleaving of the threads that use one.

A wait reads the word, releases the mutex and then asks the kernel to sleep if the word
is still the same; a pulse adds to the word and then asks the kernel to wake.
`pulse_not_lost` says what becomes of each pulse that falls into a wait, `sleeps_iff` at
which count of pulses the word comes around and one is lost, and `never_stuck` that the
usual client, which changes its predicate under the mutex and then broadcasts, leaves
nobody asleep for good. -/

namespace MochaHal.Bionic
open MochaHal.Reach

/-! ## The source -/

abbrev Tid := Nat

def COND_SHARED_MASK : BitVec 32 := 0x0001
def COND_CLOCK_MASK : BitVec 32 := 0x0002
def COND_COUNTER_STEP : BitVec 32 := 0x0004
def COND_FLAGS_MASK : BitVec 32 := COND_SHARED_MASK ||| COND_CLOCK_MASK

def INT_MAX : Nat := 2147483647
def EINTR : Int := 4
def EAGAIN : Int := 11
def ETIMEDOUT : Int := 110

/-- `pthread_cond_init`, the state that it stores. -/
def pthread_cond_init (attr : Option (BitVec 32)) : BitVec 32 :=
  match attr with
  | none => 0
  | some attr => attr &&& COND_FLAGS_MASK

def process_shared (state : BitVec 32) : Bool := decide (state &&& COND_SHARED_MASK ≠ 0)

/-- Where a thread is. -/
inductive Pc
  /-- outside of the condition variable -/
  | out
  /-- in a wait, at `pthread_mutex_unlock` -/
  | loaded (old_state : BitVec 32)
  /-- in a wait, at `__futex_wait_ex` -/
  | unlocked (old_state : BitVec 32)
  /-- asleep in the kernel -/
  | asleep
  /-- back from `__futex_wait_ex`, at `pthread_mutex_lock` -/
  | relocking (status : Int)
  /-- in `__pthread_cond_pulse`, at `__futex_wake_ex`; `pulse` counts the pulses before this one -/
  | pulsed (pulse thread_count : Nat)
  deriving DecidableEq, Repr

/-- A pulse, with the threads that it has woken once it is over. -/
structure Pulse where
  thread_count : Nat
  woken : Option (List Tid)
  deriving DecidableEq, Repr

/-- The condition variable, its mutex and its users.  `queue` holds the sleepers of the
word, private and shared ones apart as the kernel does; `pulses` and `since` are the
history: every pulse so far, and how many there were when a thread last read the word. -/
structure Sys where
  state : BitVec 32
  mutex : Option Tid
  pc : Tid → Pc
  ret : Tid → Int
  queue : Bool → List Tid
  pulses : List Pulse
  since : Tid → Nat

def Sys.start (attr : Option (BitVec 32)) : Sys :=
  ⟨pthread_cond_init attr, none, fun _ => .out, fun _ => 0, fun _ => [], [], fun _ => 0⟩

inductive Act
  | pthread_mutex_lock (t : Tid)
  | pthread_mutex_unlock (t : Tid)
  /-- the load of `__pthread_cond_timedwait_relative` -/
  | load (t : Tid)
  | release (t : Tid)
  | futex_wait (t : Tid)
  /-- the kernel ends a sleep that nobody ended: the time is up, or a signal came -/
  | futex_return (t : Tid) (status : Int)
  | relock (t : Tid)
  /-- the addition of `__pthread_cond_pulse` -/
  | fetch_add (t : Tid) (thread_count : Nat)
  /-- the kernel wakes `woken` -/
  | futex_wake (t : Tid) (woken : List Tid)
  deriving DecidableEq, Repr

namespace Sys

def goto (s : Sys) (t : Tid) (pc : Pc) : Sys := { s with pc := Function.update s.pc t pc }

/-- `pthread_cond_wait` and `pthread_cond_timedwait` up to their load. -/
def load (s : Sys) (t : Tid) : Sys :=
  { s with pc := Function.update s.pc t (.loaded s.state)
           since := Function.update s.since t s.pulses.length }

def sleep (s : Sys) (t : Tid) : Sys :=
  { s.goto t .asleep with
    queue := Function.update s.queue (process_shared s.state) (s.queue (process_shared s.state) ++ [t]) }

def leave (s : Sys) (t : Tid) (status : Int) : Sys :=
  { s.goto t (.relocking status) with queue := fun k => (s.queue k).filter (· ≠ t) }

def back (s : Sys) (t : Tid) (status : Int) : Sys :=
  { s.goto t .out with
    mutex := some t
    ret := Function.update s.ret t (if status = -ETIMEDOUT then ETIMEDOUT else 0) }

def add (s : Sys) (t : Tid) (thread_count : Nat) : Sys :=
  { s.goto t (.pulsed s.pulses.length thread_count) with
    state := s.state + COND_COUNTER_STEP
    pulses := s.pulses ++ [⟨thread_count, none⟩] }

/-- What `FUTEX_WAKE` may wake: as many sleepers as there are and it was told to. -/
def Wakes (s : Sys) (thread_count : Nat) (woken : List Tid) : Prop :=
  woken.Nodup ∧ (∀ u ∈ woken, u ∈ s.queue (process_shared s.state)) ∧
  woken.length = min thread_count (s.queue (process_shared s.state)).length

instance (s : Sys) (thread_count : Nat) (woken : List Tid) :
    Decidable (s.Wakes thread_count woken) :=
  inferInstanceAs (Decidable (_ ∧ _ ∧ _))

def wake (s : Sys) (t : Tid) (pulse thread_count : Nat) (woken : List Tid) : Sys :=
  { s with
    pc := Function.update (fun u => if u ∈ woken then .relocking 0 else s.pc u) t .out
    queue := fun k => (s.queue k).filter (· ∉ woken)
    pulses := s.pulses.set pulse ⟨thread_count, some woken⟩ }

/-- One step; `none` where the thread cannot take it.  A wait is entered with the mutex. -/
def next (s : Sys) : Act → Option Sys
  | .pthread_mutex_lock t =>
    if s.mutex = none ∧ s.pc t = .out then some { s with mutex := some t } else none
  | .pthread_mutex_unlock t =>
    if s.mutex = some t ∧ s.pc t = .out then some { s with mutex := none } else none
  | .load t => if s.mutex = some t ∧ s.pc t = .out then some (s.load t) else none
  | .release t =>
    match s.pc t with
    | .loaded old_state => some { s.goto t (.unlocked old_state) with mutex := none }
    | _ => none
  | .futex_wait t =>
    match s.pc t with
    | .unlocked old_state =>
      if s.state = old_state then some (s.sleep t) else some (s.goto t (.relocking (-EAGAIN)))
    | _ => none
  | .futex_return t status =>
    if s.pc t = .asleep ∧ status ∈ [-ETIMEDOUT, -EINTR] then some (s.leave t status) else none
  | .relock t =>
    match s.pc t with
    | .relocking status => if s.mutex = none then some (s.back t status) else none
    | _ => none
  | .fetch_add t thread_count => if s.pc t = .out then some (s.add t thread_count) else none
  | .futex_wake t woken =>
    match s.pc t with
    | .pulsed pulse thread_count =>
      if s.Wakes thread_count woken then some (s.wake t pulse thread_count woken) else none
    | _ => none

end Sys

def pthread_cond_signal (t : Tid) : Act := .fetch_add t 1
def pthread_cond_broadcast (t : Tid) : Act := .fetch_add t INT_MAX

/-! ## The word and the history -/

/-- What holds between the word, the queue and the history. -/
structure Inv (first : BitVec 32) (s : Sys) : Prop where
  word : s.state = first + BitVec.ofNat 32 (4 * s.pulses.length)
  since : ∀ t, s.since t ≤ s.pulses.length
  old : ∀ t old, s.pc t = .loaded old ∨ s.pc t = .unlocked old →
    old = first + BitVec.ofNat 32 (4 * s.since t)
  queue : ∀ t k, t ∈ s.queue k ↔ s.pc t = .asleep ∧ k = process_shared first
  pulsed : ∀ t j n, s.pc t = .pulsed j n → s.pulses[j]? = some ⟨n, none⟩
  pulser : ∀ j n, s.pulses[j]? = some ⟨n, none⟩ → ∃ t, s.pc t = .pulsed j n
  alone : ∀ t u j m n, s.pc t = .pulsed j m → s.pc u = .pulsed j n → t = u
  holder : ∀ t old, s.pc t = .loaded old → s.mutex = some t

/-- The counter does not reach the flags. -/
theorem process_shared_add (first : BitVec 32) (n : Nat) :
    process_shared (first + BitVec.ofNat 32 (4 * n)) = process_shared first := by
  have hbit : ∀ x : BitVec 32, process_shared x = decide (x.toNat % 2 = 1) := by
    intro x
    have hand : (x &&& COND_SHARED_MASK).toNat = x.toNat % 2 := by
      rw [BitVec.toNat_and]
      exact Nat.and_one_is_mod _
    rw [process_shared, decide_eq_decide, Ne, ← BitVec.toNat_inj, hand]
    simp
  rw [hbit, hbit, BitVec.toNat_add, BitVec.toNat_ofNat]
  congr 1
  rw [eq_iff_iff]
  omega

theorem inv_start (attr : Option (BitVec 32)) : Inv (pthread_cond_init attr) (Sys.start attr) where
  word := by simp [Sys.start]
  since _ := Nat.zero_le _
  old t old h := by rcases h with h | h <;> cases h
  queue t k := by simp [Sys.start]
  pulsed t j n h := by cases h
  pulser j n h := by simp [Sys.start] at h
  alone t u j m n h := by cases h
  holder t old h := by cases h

section
variable {first : BitVec 32} {s s' : Sys} {t : Tid}

theorem Inv.shared (h : Inv first s) : process_shared s.state = process_shared first := by
  rw [h.word, process_shared_add]

/-- A wait finds the word that it has read exactly if the word has come around. -/
theorem Inv.same_iff (h : Inv first s) {old : BitVec 32} (ht : s.pc t = .unlocked old) :
    s.state = old ↔ 2 ^ 30 ∣ s.pulses.length - s.since t := by
  have hsince := h.since t
  rw [h.word, h.old t old (.inr ht), BitVec.add_right_inj, ← BitVec.toNat_inj, BitVec.toNat_ofNat,
    BitVec.toNat_ofNat]
  omega

/-- A thread that moves between places that are neither sleep nor a pulse. -/
theorem Inv.goto (h : Inv first s) (pc : Pc) (hawake : s.pc t ≠ .asleep)
    (hpulse : ∀ j n, s.pc t ≠ .pulsed j n) (hawake' : pc ≠ .asleep) (hpulse' : ∀ j n, pc ≠ .pulsed j n)
    (hloaded' : ∀ old, pc ≠ .loaded old)
    (hold : ∀ old, pc = .unlocked old → old = first + BitVec.ofNat 32 (4 * s.since t)) :
    Inv first (s.goto t pc) := by
  obtain ⟨hword, hsince, hloaded, hqueue, hpulsed, hpulser, halone, hholder⟩ := h
  refine ⟨hword, hsince, ?_, ?_, ?_, ?_, ?_, ?_⟩ <;> simp only [Sys.goto, Function.update_apply]
  all_goals grind

theorem Inv.load (h : Inv first s) (hmutex : s.mutex = some t) (ht : s.pc t = .out) :
    Inv first (s.load t) := by
  obtain ⟨hword, hsince, hloaded, hqueue, hpulsed, hpulser, halone, hholder⟩ := h
  refine ⟨hword, ?_, ?_, ?_, ?_, ?_, ?_, ?_⟩ <;> simp only [Sys.load, Function.update_apply]
  all_goals grind

theorem Inv.sleep (h : Inv first s) {old : BitVec 32} (ht : s.pc t = .unlocked old) :
    Inv first (s.sleep t) := by
  have hshared := h.shared
  obtain ⟨hword, hsince, hloaded, hqueue, hpulsed, hpulser, halone, hholder⟩ := h
  refine ⟨hword, hsince, ?_, ?_, ?_, ?_, ?_, ?_⟩ <;>
    simp only [Sys.sleep, Sys.goto, Function.update_apply, hshared]
  all_goals grind

theorem Inv.leave (h : Inv first s) (ht : s.pc t = .asleep) (status : Int) :
    Inv first (s.leave t status) := by
  obtain ⟨hword, hsince, hloaded, hqueue, hpulsed, hpulser, halone, hholder⟩ := h
  refine ⟨hword, hsince, ?_, ?_, ?_, ?_, ?_, ?_⟩ <;>
    simp only [Sys.leave, Sys.goto, Function.update_apply]
  all_goals grind

theorem Inv.add (h : Inv first s) (ht : s.pc t = .out) (n : Nat) : Inv first (s.add t n) := by
  obtain ⟨hword, hsince, hloaded, hqueue, hpulsed, hpulser, halone, hholder⟩ := h
  refine ⟨?_, ?_, ?_, ?_, ?_, ?_, ?_, ?_⟩ <;> simp only [Sys.add, Sys.goto, Function.update_apply]
  case refine_1 =>
    rw [hword, List.length_append, List.length_singleton, Nat.mul_add, BitVec.ofNat_add,
      ← BitVec.add_assoc]
    rfl
  all_goals grind

theorem Inv.wake (h : Inv first s) {pulse n : Nat} {woken : List Tid} (ht : s.pc t = .pulsed pulse n)
    (hw : s.Wakes n woken) : Inv first (s.wake t pulse n woken) := by
  have hasleep : ∀ u ∈ woken, s.pc u = .asleep := fun u hu => ((h.queue u _).mp (hw.2.1 u hu)).1
  have hlt : pulse < s.pulses.length := (List.getElem?_eq_some_iff.mp (h.pulsed t pulse n ht)).1
  obtain ⟨hword, hsince, hloaded, hqueue, hpulsed, hpulser, halone, hholder⟩ := h
  refine ⟨?_, ?_, ?_, ?_, ?_, ?_, ?_, ?_⟩ <;>
    simp only [Sys.wake, Function.update_apply, List.length_set]
  all_goals grind

theorem inv_next (h : Inv first s) {a : Act} (hs : s.next a = some s') : Inv first s' := by
  have hholder := h.holder
  cases a with
  | pthread_mutex_lock t =>
    obtain ⟨⟨hnone, -⟩, hs⟩ := Option.ite_none_right_eq_some.mp hs
    cases hs
    exact { h with holder := by grind }
  | pthread_mutex_unlock t =>
    obtain ⟨⟨hmutex, ht⟩, hs⟩ := Option.ite_none_right_eq_some.mp hs
    cases hs
    exact { h with holder := by grind }
  | load t =>
    obtain ⟨⟨hmutex, ht⟩, hs⟩ := Option.ite_none_right_eq_some.mp hs
    cases hs
    exact h.load hmutex ht
  | release t =>
    simp only [Sys.next] at hs
    split at hs
    case h_1 old ht =>
      cases hs
      have hold : old = first + BitVec.ofNat 32 (4 * s.since t) := h.old t old (.inl ht)
      have hg := h.goto (t := t) (.unlocked old) (by simp [ht]) (by simp [ht]) (by simp)
        (by simp) (by simp) (by simp [hold])
      -- the mutex was this thread's
      have hothers : ∀ u old', Function.update s.pc t (.unlocked old) u ≠ .loaded old' := by
        intro u old'
        rw [Function.update_apply]
        grind
      exact { hg with holder := fun u old' hu => absurd hu (hothers u old') }
    case h_2 => cases hs
  | futex_wait t =>
    simp only [Sys.next] at hs
    split at hs
    case h_1 old ht =>
      split at hs <;> cases hs
      case isTrue heq => exact h.sleep ht
      case isFalse hne =>
        exact h.goto _ (by simp [ht]) (by simp [ht]) (by simp) (by simp) (by simp) (by simp)
    case h_2 => cases hs
  | futex_return t status =>
    obtain ⟨⟨ht, -⟩, hs⟩ := Option.ite_none_right_eq_some.mp hs
    cases hs
    exact h.leave ht status
  | relock t =>
    simp only [Sys.next] at hs
    split at hs
    case h_1 status ht =>
      obtain ⟨hnone, hs⟩ := Option.ite_none_right_eq_some.mp hs
      cases hs
      have hg := h.goto (t := t) .out (by simp [ht]) (by simp [ht]) (by simp) (by simp)
        (by simp) (by simp)
      exact { hg with holder := fun u old hu => by have := hg.holder u old hu; simp_all [Sys.goto] }
    case h_2 => cases hs
  | fetch_add t n =>
    obtain ⟨ht, hs⟩ := Option.ite_none_right_eq_some.mp hs
    cases hs
    exact h.add ht n
  | futex_wake t woken =>
    simp only [Sys.next] at hs
    split at hs
    case h_1 pulse n ht =>
      obtain ⟨hw, hs⟩ := Option.ite_none_right_eq_some.mp hs
      cases hs
      exact h.wake ht hw
    case h_2 => cases hs

end

/-- The runs whose steps all meet `ok`. -/
abbrev Run (attr : Option (BitVec 32)) (ok : Sys → Act → Prop) : Sys → Prop :=
  Reachable (· = Sys.start attr) (fun s a s' => s.next a = some s') ok

theorem inv_run {attr : Option (BitVec 32)} {ok : Sys → Act → Prop} {s : Sys} (h : Run attr ok s) :
    Inv (pthread_cond_init attr) s := by
  refine h.invariant ?_ fun s a s' hs _ hnext => inv_next hs hnext
  rintro s rfl
  exact inv_start attr

/-- A waiter is in time while the word cannot have come around. -/
def InTime (s : Sys) : Act → Prop
  | .futex_wait t => s.pulses.length - s.since t < 2 ^ 30
  | _ => True

instance (s : Sys) : (a : Act) → Decidable (InTime s a)
  | .futex_wait t => inferInstanceAs (Decidable (s.pulses.length - s.since t < 2 ^ 30))
  | .pthread_mutex_lock _ | .pthread_mutex_unlock _ | .load _ | .release _ | .futex_return _ _
  | .relock _ | .fetch_add _ _ | .futex_wake _ _ => isTrue trivial

/-! ## What becomes of a pulse -/

/-- Who sleeps on has not been woken, and the pulses found others enough. -/
def Given (s : Sys) : Prop :=
  ∀ t, s.pc t = .asleep → ∀ j n woken, s.since t ≤ j → s.pulses[j]? = some ⟨n, some woken⟩ →
    t ∉ woken ∧ woken.length = n

section
variable {first : BitVec 32} {s s' : Sys} {t : Tid}

/-- Nobody falls asleep, and the history stays. -/
theorem Given.of_same (h : Given s) (hpulses : s'.pulses = s.pulses) (hsince : s'.since = s.since)
    (hasleep : ∀ t, s'.pc t = .asleep → s.pc t = .asleep) : Given s' := by
  intro t ht j n woken hj hp
  rw [hpulses] at hp
  rw [hsince] at hj
  exact h t (hasleep t ht) j n woken hj hp

theorem Given.load (h : Given s) (t : Tid) : Given (s.load t) := by
  intro u hu j n woken hj hp
  simp only [Sys.load, Function.update_apply] at hu hj hp
  by_cases hut : u = t
  · simp [hut] at hu
  · rw [if_neg hut] at hu hj
    exact h u hu j n woken hj hp

theorem Given.sleep (h : Given s) (hsame : s.pulses.length = s.since t) : Given (s.sleep t) := by
  intro u hu j n woken hj hp
  simp only [Sys.sleep, Sys.goto, Function.update_apply] at hu hj hp
  by_cases hut : u = t
  · -- no pulse is newer than the load
    subst hut
    have hlt := (List.getElem?_eq_some_iff.mp hp).1
    omega
  · rw [if_neg hut] at hu
    exact h u hu j n woken hj hp

theorem Given.add (h : Given s) (t : Tid) (n : Nat) : Given (s.add t n) := by
  intro u hu j m woken hj hp
  simp only [Sys.add, Sys.goto, Function.update_apply] at hu hj hp
  grind [Given]

/-- A pulse that leaves a sleeper asleep has found as many others as it was to wake. -/
theorem Sys.Wakes.length_eq {n : Nat} {woken : List Tid} (h : s.Wakes n woken)
    (ht : t ∈ s.queue (process_shared s.state)) (hout : t ∉ woken) : woken.length = n := by
  obtain ⟨hnodup, hqueue, hlength⟩ := h
  by_contra hne
  have hall : (s.queue (process_shared s.state)).length ≤ woken.length := by omega
  have hperm := (List.Nodup.subperm hnodup hqueue).perm_of_length_le hall
  exact hout (hperm.mem_iff.mpr ht)

theorem Given.wake (h : Given s) (hinv : Inv first s) {pulse n : Nat} {woken : List Tid}
    (hw : s.Wakes n woken) : Given (s.wake t pulse n woken) := by
  intro u hu j m ws hj hp
  simp only [Sys.wake, Function.update_apply] at hu hj hp
  have hout : u ∉ woken := by grind
  have hasleep : s.pc u = .asleep := by grind
  rw [List.getElem?_set] at hp
  split at hp
  case isTrue hjp =>
    have hmem : u ∈ s.queue (process_shared s.state) := (hinv.queue u _).mpr ⟨hasleep, hinv.shared⟩
    have hlength := hw.length_eq hmem hout
    grind
  case isFalse => exact h u hasleep j m ws hj hp

theorem given_next (h : Given s) (hinv : Inv first s) {a : Act} (hok : InTime s a)
    (hs : s.next a = some s') : Given s' := by
  have hmoved : ∀ {t u : Tid} {pc : Pc}, pc ≠ .asleep → Function.update s.pc t pc u = .asleep →
      s.pc u = .asleep := by
    intro t u pc hpc hu
    rw [Function.update_apply] at hu
    split at hu
    · exact absurd hu hpc
    · exact hu
  cases a with
  | pthread_mutex_lock t =>
    obtain ⟨-, hs⟩ := Option.ite_none_right_eq_some.mp hs
    cases hs
    exact h
  | pthread_mutex_unlock t =>
    obtain ⟨-, hs⟩ := Option.ite_none_right_eq_some.mp hs
    cases hs
    exact h
  | load t =>
    obtain ⟨-, hs⟩ := Option.ite_none_right_eq_some.mp hs
    cases hs
    exact h.load t
  | release t =>
    simp only [Sys.next] at hs
    split at hs <;> cases hs
    exact h.of_same rfl rfl fun u => hmoved (by simp)
  | futex_wait t =>
    simp only [Sys.next] at hs
    split at hs
    case h_1 old ht =>
      split at hs <;> cases hs
      case isTrue heq =>
        have hdvd := (hinv.same_iff ht).mp heq
        have hsame : s.pulses.length - s.since t = 0 := Nat.eq_zero_of_dvd_of_lt hdvd hok
        have hsince := hinv.since t
        exact h.sleep (by omega)
      case isFalse => exact h.of_same rfl rfl fun u => hmoved (by simp)
    case h_2 => cases hs
  | futex_return t status =>
    obtain ⟨-, hs⟩ := Option.ite_none_right_eq_some.mp hs
    cases hs
    exact h.of_same rfl rfl fun u => hmoved (by simp)
  | relock t =>
    simp only [Sys.next] at hs
    split at hs
    case h_1 status ht =>
      obtain ⟨-, hs⟩ := Option.ite_none_right_eq_some.mp hs
      cases hs
      exact h.of_same rfl rfl fun u => hmoved (by simp)
    case h_2 => cases hs
  | fetch_add t n =>
    obtain ⟨-, hs⟩ := Option.ite_none_right_eq_some.mp hs
    cases hs
    exact h.add t n
  | futex_wake t woken =>
    simp only [Sys.next] at hs
    split at hs
    case h_1 pulse n ht =>
      obtain ⟨hw, hs⟩ := Option.ite_none_right_eq_some.mp hs
      cases hs
      exact h.wake hinv hw
    case h_2 => cases hs

end

theorem given_run {attr : Option (BitVec 32)} {s : Sys} (h : Run attr InTime s) :
    Inv (pthread_cond_init attr) s ∧ Given s := by
  refine h.invariant (P := fun s => Inv (pthread_cond_init attr) s ∧ Given s) ?_ ?_
  · rintro s rfl
    exact ⟨inv_start attr, fun t ht => by cases ht⟩
  · rintro s a s' ⟨hinv, hgiven⟩ hok hnext
    exact ⟨inv_next hinv hnext, given_next hgiven hinv hok hnext⟩

/-- **No lost wakeup.**  Each pulse since a sleeper has read the word is still on its way to
the kernel, or it has woken as many other threads as it asked for. -/
theorem pulse_not_lost {attr : Option (BitVec 32)} {s : Sys} (h : Run attr InTime s) {t : Tid}
    (ht : s.pc t = .asleep) {j : Nat} {p : Pulse} (hj : s.since t ≤ j) (hp : s.pulses[j]? = some p) :
    (∃ u, s.pc u = .pulsed j p.thread_count) ∨
    ∃ woken, p.woken = some woken ∧ t ∉ woken ∧ woken.length = p.thread_count := by
  obtain ⟨hinv, hgiven⟩ := given_run h
  obtain ⟨n, woken⟩ := p
  cases woken with
  | none => exact .inl (hinv.pulser j n hp)
  | some woken =>
    obtain ⟨hnot, hlength⟩ := hgiven t ht j n woken hj hp
    exact .inr ⟨woken, rfl, hnot, hlength⟩

/-- Two sleepers, a signal that went to the first and one on its way. -/
theorem pulse_not_lost_two : ∃ s : Sys, s.pc 1 = .asleep ∧
    s.pulses = [⟨1, some [0]⟩, ⟨1, none⟩] ∧ ((∃ u, s.pc u = .pulsed 0 1) ∨
      ∃ woken, some [0] = some woken ∧ 1 ∉ woken ∧ woken.length = 1) := by
  have hrun : Run none InTime _ := reachable_foldlM
    [.pthread_mutex_lock 0, .load 0, .release 0, .futex_wait 0,
     .pthread_mutex_lock 1, .load 1, .release 1, .futex_wait 1,
     pthread_cond_signal 2, .futex_wake 2 [0], pthread_cond_signal 2] (.start rfl) rfl
  exact ⟨_, rfl, rfl, pulse_not_lost (p := ⟨1, some [0]⟩) hrun rfl (Nat.zero_le _) rfl⟩

/-! ## The usual client -/

/-- A predicate that is changed and tested with the mutex.  `checked` are the threads that
have found it false and still have the mutex, `owes` those that have made it true and have not
broadcast yet. -/
structure Client where
  sys : Sys
  ready : Bool
  checked : Tid → Bool
  owes : Tid → Bool

def Client.start (attr : Option (BitVec 32)) : Client :=
  ⟨Sys.start attr, false, fun _ => false, fun _ => false⟩

inductive ClientAct
  | check (t : Tid)
  | set (t : Tid) (ready : Bool)
  | sys (a : Act)
  deriving DecidableEq, Repr

/-- What the client lets its threads do: wait on a false predicate, and broadcast after they
have made it true. -/
def Client.allows (c : Client) : Act → Bool
  | .load t => c.checked t && !c.owes t
  | .fetch_add _ thread_count => thread_count = INT_MAX
  | _ => true

def Client.note (c : Client) : Act → Client
  | .pthread_mutex_unlock t => { c with checked := Function.update c.checked t false }
  | .load t => { c with checked := Function.update c.checked t false }
  | .fetch_add t _ => { c with owes := Function.update c.owes t false }
  | _ => c

def Client.next (c : Client) : ClientAct → Option Client
  | .check t =>
    if c.sys.mutex = some t ∧ c.sys.pc t = .out ∧ c.ready = false then
      some { c with checked := Function.update c.checked t true }
    else none
  | .set t ready =>
    if c.sys.mutex = some t ∧ c.sys.pc t = .out then
      some { c with ready := ready, checked := Function.update c.checked t false
                    owes := Function.update c.owes t (c.owes t || ready) }
    else none
  | .sys a =>
    if c.allows a then (c.sys.next a).map fun sys => { c.note a with sys := sys } else none

/-- Waits are in time, and there are fewer sleepers than a broadcast wakes. -/
def ClientOk (c : Client) : ClientAct → Prop
  | .sys a => InTime c.sys a ∧ ∀ k, (c.sys.queue k).length < INT_MAX
  | _ => True

instance (c : Client) : (a : ClientAct) → Decidable (ClientOk c a)
  | .sys a => inferInstanceAs (Decidable (InTime c.sys a ∧ ∀ k, (c.sys.queue k).length < INT_MAX))
  | .check _ | .set _ _ => isTrue trivial

/-- In a wait, and not woken yet. -/
def Pc.waits : Pc → Bool
  | .loaded _ => true
  | .unlocked _ => true
  | .asleep => true
  | .out => false
  | .relocking _ => false
  | .pulsed _ _ => false

structure ClientInv (first : BitVec 32) (c : Client) : Prop where
  inv : Inv first c.sys
  given : Given c.sys
  checked : ∀ t, c.checked t = true →
    c.sys.mutex = some t ∧ (c.sys.pc t).waits = false ∧ c.ready = false
  owes : ∀ t, c.owes t = true → c.sys.pc t = .out
  pulses : ∀ p ∈ c.sys.pulses, p.thread_count = INT_MAX ∧ ∀ ws, p.woken = some ws → ws.length < INT_MAX
  waits : c.ready = true → ∀ t, (c.sys.pc t).waits = true →
    (∃ u, c.owes u = true) ∨ c.sys.since t < c.sys.pulses.length

theorem clientInv_start (attr : Option (BitVec 32)) :
    ClientInv (pthread_cond_init attr) (Client.start attr) where
  inv := inv_start attr
  given t ht := by cases ht
  checked t ht := by cases ht
  owes t ht := by cases ht
  pulses p hp := by cases hp
  waits h := by cases h

section
variable {first : BitVec 32} {c c' : Client} {t : Tid}

theorem ClientInv.check (h : ClientInv first c) (hmutex : c.sys.mutex = some t)
    (ht : c.sys.pc t = .out) (hready : c.ready = false) :
    ClientInv first { c with checked := Function.update c.checked t true } := by
  refine { h with checked := fun u hu => ?_ }
  by_cases hut : u = t
  · subst hut
    exact ⟨hmutex, by rw [ht]; rfl, hready⟩
  · exact h.checked u (by simpa only [Function.update_of_ne hut] using hu)

theorem ClientInv.set (h : ClientInv first c) (hmutex : c.sys.mutex = some t)
    (ht : c.sys.pc t = .out) (ready : Bool) :
    ClientInv first { c with
      ready := ready, checked := Function.update c.checked t false
      owes := Function.update c.owes t (c.owes t || ready) } := by
  obtain ⟨hinv, hgiven, hchecked, howes, hpulses, hwaits⟩ := h
  refine ⟨hinv, hgiven, ?_, ?_, hpulses, ?_⟩ <;> simp only [Function.update_apply]
  all_goals grind

/-- A step that adds no pulse and puts nobody into a wait. -/
theorem ClientInv.move (h : ClientInv first c) {sys : Sys} (hinv : Inv first sys)
    (hgiven : Given sys) (hpulses : sys.pulses = c.sys.pulses) (hsince : sys.since = c.sys.since)
    (hwaits : ∀ u, (sys.pc u).waits = true → (c.sys.pc u).waits = true)
    (howes : ∀ u, c.owes u = true → sys.pc u = .out)
    (hchecked : ∀ u, c.checked u = true → sys.mutex = some u) :
    ClientInv first { c with sys := sys } where
  inv := hinv
  given := hgiven
  checked u hu := ⟨hchecked u hu, by
    have := h.checked u hu
    have := hwaits u
    grind⟩
  owes := howes
  pulses := hpulses ▸ h.pulses
  waits hready u hu := by
    rw [hsince, hpulses]
    exact h.waits hready u (hwaits u hu)

theorem ClientInv.load (h : ClientInv first c) (hinv : Inv first (c.sys.load t))
    (hgiven : Given (c.sys.load t)) (ht : c.checked t = true) (howes : c.owes t = false) :
    ClientInv first { c with
      checked := Function.update c.checked t false, sys := c.sys.load t } := by
  have hfalse := (h.checked t ht).2.2
  obtain ⟨-, -, hchecked, hnotowes, hpulses, hwaits⟩ := h
  refine ⟨hinv, hgiven, ?_, ?_, hpulses, ?_⟩ <;> simp only [Sys.load, Function.update_apply]
  all_goals grind

theorem ClientInv.add (h : ClientInv first c) (hinv : Inv first (c.sys.add t INT_MAX))
    (hgiven : Given (c.sys.add t INT_MAX)) :
    ClientInv first { c with
      owes := Function.update c.owes t false, sys := c.sys.add t INT_MAX } := by
  have hsince := h.inv.since
  obtain ⟨-, -, hchecked, howes, hpulses, hwaits⟩ := h
  refine ⟨hinv, hgiven, ?_, ?_, ?_, ?_⟩ <;>
    simp only [Sys.add, Sys.goto, Function.update_apply]
  all_goals grind [Pc.waits]

theorem ClientInv.wake (h : ClientInv first c) {pulse n : Nat} {woken : List Tid}
    (hinv : Inv first (c.sys.wake t pulse n woken)) (hgiven : Given (c.sys.wake t pulse n woken))
    (ht : c.sys.pc t = .pulsed pulse n) (hw : c.sys.Wakes n woken)
    (hfew : (c.sys.queue (process_shared c.sys.state)).length < INT_MAX) :
    ClientInv first { c with sys := c.sys.wake t pulse n woken } := by
  have hasleep : ∀ u ∈ woken, c.sys.pc u = .asleep :=
    fun u hu => ((h.inv.queue u _).mp (hw.2.1 u hu)).1
  have hfewer : woken.length < INT_MAX := hw.2.2 ▸ (Nat.min_le_right _ _).trans_lt hfew
  have hn := (h.pulses _ (List.mem_of_getElem? (h.inv.pulsed t pulse n ht))).1
  obtain ⟨-, -, hchecked, howes, hpulses, hwaits⟩ := h
  refine ⟨hinv, hgiven, ?_, ?_, ?_, ?_⟩ <;>
    simp only [Sys.wake, Function.update_apply, List.length_set]
  case refine_3 =>
    intro p hp
    rcases List.mem_or_eq_of_mem_set hp with hp | rfl
    · exact hpulses p hp
    · exact ⟨hn, fun ws hws => by cases hws; exact hfewer⟩
  all_goals grind [Pc.waits]

theorem ClientInv.sys (h : ClientInv first c) {a : Act} {sys : Sys} (hallows : c.allows a = true)
    (hok : ClientOk c (.sys a)) (hs : c.sys.next a = some sys) :
    ClientInv first { c.note a with sys := sys } := by
  obtain ⟨htime, hfew⟩ := hok
  have hinv := inv_next h.inv hs
  have hgiven := given_next h.given h.inv htime hs
  have howes := h.owes
  have hchecked := h.checked
  cases a with
  | pthread_mutex_lock t =>
    obtain ⟨⟨hnone, -⟩, hs⟩ := Option.ite_none_right_eq_some.mp hs
    cases hs
    exact h.move hinv hgiven rfl rfl (fun u => id) howes (by grind)
  | pthread_mutex_unlock t =>
    obtain ⟨⟨hmutex, -⟩, hs⟩ := Option.ite_none_right_eq_some.mp hs
    cases hs
    refine ⟨hinv, hgiven, fun u hu => ?_, howes, h.pulses, h.waits⟩
    simp only [Client.note, Function.update_apply] at hu
    grind
  | load t =>
    obtain ⟨-, hs⟩ := Option.ite_none_right_eq_some.mp hs
    cases hs
    obtain ⟨ht, hnot⟩ : c.checked t = true ∧ c.owes t = false := by simpa [Client.allows] using hallows
    exact h.load hinv hgiven ht hnot
  | release t =>
    simp only [Sys.next] at hs
    split at hs
    case h_1 old ht =>
      cases hs
      have hmutex := h.inv.holder t old ht
      refine h.move hinv hgiven rfl rfl ?_ ?_ ?_ <;> simp only [Sys.goto, Function.update_apply]
      all_goals grind [Pc.waits]
    case h_2 => cases hs
  | futex_wait t =>
    simp only [Sys.next] at hs
    split at hs
    case h_1 old ht =>
      split at hs <;> cases hs
      all_goals
        refine h.move hinv hgiven rfl rfl ?_ ?_ ?_ <;>
          simp only [Sys.sleep, Sys.goto, Function.update_apply]
        all_goals grind [Pc.waits]
    case h_2 => cases hs
  | futex_return t status =>
    obtain ⟨⟨ht, -⟩, hs⟩ := Option.ite_none_right_eq_some.mp hs
    cases hs
    refine h.move hinv hgiven rfl rfl ?_ ?_ ?_ <;>
      simp only [Sys.leave, Sys.goto, Function.update_apply]
    all_goals grind [Pc.waits]
  | relock t =>
    simp only [Sys.next] at hs
    split at hs
    case h_1 status ht =>
      obtain ⟨hnone, hs⟩ := Option.ite_none_right_eq_some.mp hs
      cases hs
      refine h.move hinv hgiven rfl rfl ?_ ?_ ?_ <;>
        simp only [Sys.back, Sys.goto, Function.update_apply]
      all_goals grind [Pc.waits]
    case h_2 => cases hs
  | fetch_add t n =>
    obtain ⟨ht, hs⟩ := Option.ite_none_right_eq_some.mp hs
    cases hs
    obtain rfl : n = INT_MAX := by simpa [Client.allows] using hallows
    exact h.add hinv hgiven
  | futex_wake t woken =>
    simp only [Sys.next] at hs
    split at hs
    case h_1 pulse n ht =>
      obtain ⟨hw, hs⟩ := Option.ite_none_right_eq_some.mp hs
      cases hs
      exact h.wake hinv hgiven ht hw (hfew _)
    case h_2 => cases hs

end

abbrev ClientRun (attr : Option (BitVec 32)) : Client → Prop :=
  Reachable (· = Client.start attr) (fun c a c' => c.next a = some c') ClientOk

theorem client_run {attr : Option (BitVec 32)} {c : Client} (h : ClientRun attr c) :
    ClientInv (pthread_cond_init attr) c := by
  refine h.invariant ?_ fun c a c' hc hok hs => ?_
  · rintro c rfl
    exact clientInv_start attr
  · cases a with
    | check t =>
      obtain ⟨⟨hmutex, ht, hready⟩, hs⟩ := Option.ite_none_right_eq_some.mp hs
      cases hs
      exact hc.check hmutex ht hready
    | set t ready =>
      obtain ⟨⟨hmutex, ht⟩, hs⟩ := Option.ite_none_right_eq_some.mp hs
      cases hs
      exact hc.set hmutex ht ready
    | sys a =>
      obtain ⟨hallows, hs⟩ := Option.ite_none_right_eq_some.mp hs
      obtain ⟨sys, hsys, rfl⟩ := Option.map_eq_some_iff.mp hs
      exact hc.sys hallows hok hsys

/-- **Nobody is stuck.**  While the predicate is true and a thread sleeps, some thread has its
broadcast still to make, or is in one that wakes the sleeper whatever the kernel chooses. -/
theorem never_stuck {attr : Option (BitVec 32)} {c : Client} (h : ClientRun attr c)
    (hready : c.ready = true) {t : Tid} (ht : c.sys.pc t = .asleep) :
    (∃ u, c.owes u = true ∧ c.sys.pc u = .out) ∨
    ∃ u j, c.sys.pc u = .pulsed j INT_MAX ∧
      ∀ woken c', ClientOk c (.sys (.futex_wake u woken)) →
        c.next (.sys (.futex_wake u woken)) = some c' → c'.sys.pc t = .relocking 0 := by
  have hinv := client_run h
  rcases hinv.waits hready t (by rw [ht]; rfl) with ⟨u, hu⟩ | hlt
  · exact .inl ⟨u, hu, hinv.owes u hu⟩
  -- the first broadcast since the load is not over, as it would have woken everybody
  obtain ⟨p, hp⟩ : ∃ p, c.sys.pulses[c.sys.since t]? = some p := ⟨_, List.getElem?_eq_getElem hlt⟩
  obtain ⟨hcount, hfewer⟩ := hinv.pulses p (List.mem_of_getElem? hp)
  have hopen : p.woken = none := by
    cases hw : p.woken with
    | none => rfl
    | some woken =>
      have hlength := (hinv.given t ht _ p.thread_count woken le_rfl (by rw [hp, ← hw])).2
      have := hfewer woken hw
      omega
  obtain ⟨u, hu⟩ := hinv.inv.pulser _ INT_MAX (by rw [hp, ← hcount, ← hopen])
  refine .inr ⟨u, _, hu, fun woken c' hok hs => ?_⟩
  simp only [Client.next, Client.allows, if_true, Option.map_eq_some_iff] at hs
  obtain ⟨sys, hsys, rfl⟩ := hs
  simp only [Sys.next, hu] at hsys
  obtain ⟨hw, hsys⟩ := Option.ite_none_right_eq_some.mp hsys
  cases hsys
  have hmem : t ∈ c.sys.queue (process_shared c.sys.state) :=
    (hinv.inv.queue t _).mpr ⟨ht, hinv.inv.shared⟩
  have hwoken : t ∈ woken := by
    by_contra hout
    have hall := hw.length_eq hmem hout
    have hfew := hok.2 (process_shared c.sys.state)
    have hmin := hw.2.2
    omega
  have hut : t ≠ u := by
    rintro rfl
    rw [ht] at hu
    cases hu
  simp [Sys.wake, hut, hwoken]

/-- A sleeper, and the thread that has made the predicate true before its broadcast. -/
theorem never_stuck_one : ∃ c : Client, c.ready = true ∧ c.sys.pc 0 = .asleep ∧
    ((∃ u, c.owes u = true ∧ c.sys.pc u = .out) ∨
      ∃ u j, c.sys.pc u = .pulsed j INT_MAX ∧
        ∀ woken c', ClientOk c (.sys (.futex_wake u woken)) →
          c.next (.sys (.futex_wake u woken)) = some c' → c'.sys.pc 0 = .relocking 0) := by
  have hrun : ClientRun none _ := reachable_foldlM
    [.sys (.pthread_mutex_lock 0), .check 0, .sys (.load 0), .sys (.release 0),
     .sys (.futex_wait 0), .sys (.pthread_mutex_lock 1), .set 1 true] (.start rfl) rfl
  exact ⟨_, rfl, rfl, never_stuck hrun rfl rfl⟩

end MochaHal.Bionic
