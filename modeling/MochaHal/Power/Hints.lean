import MochaHal.Power.Command
import Mathlib.Logic.Function.Basic
import Mathlib.Data.List.Induction

/-! Power hints and how often they are let through.  The time of a hint is kept in
microseconds that were computed with 32 bits, and the arrays are too short for one of the
hints (`hint_rate_limit`). -/

namespace MochaHal.Power

open MochaHal.Decimal

/-! ## Hints -/

/-- The values of `power_hint_t`. -/
structure HintCodes where
  VSYNC : Nat
  INTERACTION : Nat
  SET_PROFILE : Nat
  LAUNCH : Nat
  VIDEO_DECODE : Nat
  VIDEO_ENCODE : Nat
  LOW_POWER : Nat

def HintCodes.MAX_POWER_HINT_COUNT (codes : HintCodes) : Nat := codes.SET_PROFILE

/-- `struct timespec` of the monotonic clock where a `time_t` has 32 bits. -/
structure Timespec where
  tv_sec : Nat
  tv_nsec : Nat
  sec_lt : tv_sec < 2 ^ 31
  nsec_lt : tv_nsec < 10 ^ 9

/-- The arrays of `struct powerhal_info`, and the indices they were accessed with. -/
structure HintInfo where
  hint_time : Nat → BitVec 64
  hint_interval : Nat → BitVec 64
  used : List Nat

def HintInfo.setInterval (info : HintInfo) (hint : Nat) (usec : BitVec 64) : HintInfo :=
  { info with hint_interval := Function.update info.hint_interval hint usec, used := info.used ++ [hint] }

section

variable (codes : HintCodes)

/-- The intervals of `common_power_open`. -/
def openHints (info : HintInfo) : HintInfo :=
  ((((((info.setInterval codes.VSYNC 0).setInterval codes.INTERACTION 90000).setInterval codes.SET_PROFILE
    200000).setInterval codes.LAUNCH 1500000).setInterval codes.VIDEO_DECODE 500000).setInterval codes.VIDEO_ENCODE
    500000).setInterval codes.LOW_POWER 0

/-- `ts.tv_sec * 1000000 + ts.tv_nsec / 1000`, computed in a `long` and widened. -/
def Timespec.stamp (ts : Timespec) : BitVec 64 :=
  (BitVec.ofNat 32 ts.tv_sec * 1000000#32 + BitVec.ofNat 32 (ts.tv_nsec / 1000)).signExtend 64

/-- `check_hint`: the time of a hint that is let through. -/
def checkHint (info : HintInfo) (hint : Nat) (ts : Timespec) : Option (BitVec 64) × HintInfo :=
  if codes.MAX_POWER_HINT_COUNT ≤ hint then (none, info)
  else
    let info := { info with used := info.used ++ [hint] }
    if info.hint_time hint ≠ 0 ∧ info.hint_interval hint ≠ 0 ∧
        ts.stamp - info.hint_time hint < info.hint_interval hint then (none, info)
    else (some ts.stamp, info)

/-- A timed request to a PM QoS node: a command for a node with a priority, or a value. -/
inductive TimedRequest
  | constraint (node : String) (priority max min : Int) (timeout_ms : Nat)
  | value (node : String) (val : Int) (timeout_ms : Nat)
  deriving DecidableEq, Repr

/-- The requests of a hint that is let through. -/
def hintRequests (hint : Nat) : List TimedRequest :=
  if hint = codes.VSYNC ∨ hint = codes.INTERACTION then []
  else if hint = codes.LAUNCH then
    [.constraint "/dev/constraint_cpu_freq" PM_QOS_BOOST_PRIORITY PM_QOS_DEFAULT_VALUE INT_MAX 1500,
      .constraint "/dev/constraint_online_cpus" PM_QOS_BOOST_PRIORITY PM_QOS_DEFAULT_VALUE 2 1500,
      .constraint "/dev/constraint_gpu_freq" PM_QOS_BOOST_PRIORITY PM_QOS_DEFAULT_VALUE 180000 1500,
      .value "/dev/emc_freq_min" 792000 1500]
  else if hint = codes.SET_PROFILE then []
  else if hint = codes.VIDEO_ENCODE then
    [.constraint "/dev/constraint_online_cpus" PM_QOS_BOOST_PRIORITY PM_QOS_DEFAULT_VALUE 2 1000,
      .constraint "/dev/constraint_cpu_freq" PM_QOS_BOOST_PRIORITY PM_QOS_DEFAULT_VALUE 816000 1000]
  else if hint = codes.VIDEO_DECODE then
    [.constraint "/dev/constraint_online_cpus" PM_QOS_BOOST_PRIORITY PM_QOS_DEFAULT_VALUE 1 1000,
      .constraint "/dev/constraint_cpu_freq" PM_QOS_BOOST_PRIORITY PM_QOS_DEFAULT_VALUE 710000 1000]
  else []

/-- `common_power_hint`: the requests of a hint, or `none` when it is rejected.  A hint that
is not known is let through too. -/
def commonPowerHint (info : HintInfo) (hint : Nat) (ts : Timespec) : Option (List TimedRequest) × HintInfo :=
  match checkHint codes info hint ts with
  | (none, info) => (none, info)
  | (some t, info) =>
    (some (hintRequests codes hint),
      { info with hint_time := Function.update info.hint_time hint t, used := info.used ++ [hint] })

/-- The commands of a hint are such that they can be read back. -/
theorem hintRequests_constraint (hint : Nat) {node : String} {priority max min : Int} {timeout_ms : Nat}
    (h : TimedRequest.constraint node priority max min timeout_ms ∈ hintRequests codes hint) :
    Constraint priority max min := by
  have hall : ∀ r ∈ hintRequests codes hint, match r with
      | .constraint _ priority max min _ => Constraint priority max min
      | .value _ _ _ => True := by
    have hmin {min : Int} (hlow : INT_MIN ≤ min) (hhigh : min ≤ INT_MAX) :
        Constraint PM_QOS_BOOST_PRIORITY PM_QOS_DEFAULT_VALUE min :=
      ⟨.inr ⟨hlow, hhigh, rfl⟩, .inl rfl⟩
    unfold hintRequests
    split_ifs <;> simp only [List.forall_mem_cons, List.not_mem_nil, false_implies, implies_true, and_true]
    · exact ⟨hmin (by decide) (by decide), hmin (by decide) (by decide), hmin (by decide) (by decide)⟩
    · exact ⟨hmin (by decide) (by decide), hmin (by decide) (by decide)⟩
    · exact ⟨hmin (by decide) (by decide), hmin (by decide) (by decide)⟩
  exact hall _ h

end

/-! ## Stamps -/

section

/-- Microseconds of the clock, as many as there are. -/
def Timespec.usec (ts : Timespec) : Nat := ts.tv_sec * 1000000 + ts.tv_nsec / 1000

/-- Nanoseconds of the clock. -/
def Timespec.nsec (ts : Timespec) : Nat := ts.tv_sec * 1000000000 + ts.tv_nsec

/-- The microseconds as a `long` has them. -/
def Timespec.stamp32 (ts : Timespec) : Int := (ts.usec : Int).bmod (2 ^ 32)

theorem stamp_eq (ts : Timespec) : ts.stamp = BitVec.ofInt 64 ts.stamp32 := by
  unfold Timespec.stamp BitVec.signExtend Timespec.stamp32 Timespec.usec
  rw [← BitVec.ofNat_mul, ← BitVec.ofNat_add, BitVec.toInt_ofNat']

theorem stamp32_range (ts : Timespec) : -2 ^ 31 ≤ ts.stamp32 ∧ ts.stamp32 < 2 ^ 31 := by
  unfold Timespec.stamp32
  constructor
  · exact Int.le_bmod (by decide)
  · exact Int.bmod_lt (by decide)

/-- A stamp is the microseconds less the turns of a `long`. -/
theorem exists_turns (ts : Timespec) : ∃ turns : Int, (ts.usec : Int) = ts.stamp32 + turns * 2 ^ 32 :=
  ⟨(ts.usec : Int).bdiv (2 ^ 32), (Int.bmod_add_bdiv' _ _).symm⟩

theorem stamp_eq_zero_iff (ts : Timespec) : ts.stamp = 0 ↔ ts.stamp32 = 0 := by
  have := stamp32_range ts
  rw [stamp_eq, ← BitVec.toInt_inj, BitVec.toInt_ofInt]
  show ts.stamp32.bmod (2 ^ 64) = 0 ↔ _
  rw [Int.bmod_eq_of_le (by omega) (by omega)]

theorem stamp_sub_toNat (a b : Timespec) :
    ((a.stamp - b.stamp).toNat : Int) = (a.stamp32 - b.stamp32) % 2 ^ 64 := by
  rw [stamp_eq, stamp_eq, BitVec.sub_eq_add_neg, ← BitVec.ofInt_neg, ← BitVec.ofInt_add, BitVec.toNat_ofInt]
  exact Int.toNat_of_nonneg (Int.emod_nonneg _ (by decide))

/-- Less than the interval has passed since a hint, in real time. -/
def Recent (interval : Nat) (prev cur : Timespec) : Prop := cur.nsec < prev.nsec + 1000 * interval

instance (interval : Nat) (prev cur : Timespec) : Decidable (Recent interval prev cur) :=
  inferInstanceAs (Decidable (_ < _))

/-- Less than the interval has passed since a stamp, as the code computes it. -/
def StampRecent (interval : BitVec 64) (stamp : BitVec 64) (cur : Timespec) : Prop :=
  stamp ≠ 0 ∧ cur.stamp - stamp < interval

/-- When the stamps say what the clock says.  A hint is let through too early when the stamps
turn over between the two, when the first stamp is 0 and when the two are just the interval
apart in whole microseconds; it is rejected too late when the stamps come round again. -/
def StampsFit (interval : Nat) (prev cur : Timespec) : Prop :=
  if Recent interval prev cur then
    prev.stamp32 ≠ 0 ∧ prev.stamp32 ≤ cur.stamp32 ∧ cur.usec ≠ prev.usec + interval
  else prev.stamp32 = 0 ∨ cur.stamp32 < prev.stamp32 ∨ interval ≤ (cur.usec - prev.usec) % 2 ^ 32

theorem usec_of_nsec (ts : Timespec) : ∃ frac, frac < 1000 ∧ ts.nsec = 1000 * ts.usec + frac := by
  refine ⟨ts.tv_nsec % 1000, Nat.mod_lt _ (by decide), ?_⟩
  unfold Timespec.nsec Timespec.usec
  omega

/-- The distance of two stamps: what is left of the microseconds, or almost a whole turn of
64 bits. -/
theorem stamp_distance {prev cur : Timespec} (h : prev.usec ≤ cur.usec) :
    (prev.stamp32 ≤ cur.stamp32 ∧ (cur.stamp - prev.stamp).toNat = (cur.usec - prev.usec) % 2 ^ 32 ∧
        (cur.usec - prev.usec < 2 ^ 32 → (cur.stamp - prev.stamp).toNat = cur.usec - prev.usec)) ∨
      (cur.stamp32 < prev.stamp32 ∧ 2 ^ 32 ≤ (cur.stamp - prev.stamp).toNat) := by
  obtain ⟨turns, hprev⟩ := exists_turns prev
  obtain ⟨turns', hcur⟩ := exists_turns cur
  have hrange := stamp32_range prev
  have hrange' := stamp32_range cur
  have hdist := stamp_sub_toNat cur prev
  rcases Int.lt_or_le cur.stamp32 prev.stamp32 with hlt | hle
  · exact .inr ⟨hlt, by omega⟩
  · exact .inl ⟨hle, by omega, by omega⟩

theorem stampRecent_iff {interval : BitVec 64} {prev cur : Timespec} (hclock : prev.nsec ≤ cur.nsec)
    (hinterval : interval.toNat < 2 ^ 31) :
    (StampRecent interval prev.stamp cur ↔ Recent interval.toNat prev cur) ↔ StampsFit interval.toNat prev cur := by
  obtain ⟨frac, hfrac, hprev⟩ := usec_of_nsec prev
  obtain ⟨frac', hfrac', hcur⟩ := usec_of_nsec cur
  have hdist := @stamp_distance prev cur (by omega)
  unfold StampRecent StampsFit
  rw [BitVec.lt_def, ne_eq, stamp_eq_zero_iff]
  generalize (cur.stamp - prev.stamp).toNat = dist at hdist ⊢
  by_cases hrecent : Recent interval.toNat prev cur
  · have hless : cur.usec ≤ prev.usec + interval.toNat := by
      unfold Recent at hrecent
      omega
    rw [if_pos hrecent, iff_true_right hrecent]
    constructor
    · rintro ⟨hzero, hlt⟩
      exact ⟨hzero, by omega, by omega⟩
    · rintro ⟨hzero, hle, hne⟩
      exact ⟨hzero, by omega⟩
  · have hmore : prev.usec + interval.toNat ≤ cur.usec := by
      unfold Recent at hrecent
      omega
    rw [if_neg hrecent, iff_false_right hrecent, not_and]
    constructor
    · intro h
      by_contra hnot
      obtain ⟨hzero, hnot⟩ := not_or.mp hnot
      have := h hzero
      omega
    · rintro (hzero | hlt | hle) hne hless
      · exact hne hzero
      · omega
      · omega

end

/-! ## Runs -/

/-- A call of `common_power_hint`. -/
structure HintCall where
  hint : Nat
  time : Timespec

/-- The arrays and the calls that were let through, the last one first. -/
structure HintState where
  info : HintInfo
  accepted : List HintCall

section

variable (codes : HintCodes)

/-- After `common_power_open`, with what was in the memory of the arrays. -/
def hintStart (memory : HintInfo) : HintState := ⟨openHints codes { memory with used := [] }, []⟩

/-- Whether a call is rejected. -/
def Rejected (s : HintState) (call : HintCall) : Prop := (commonPowerHint codes s.info call.hint call.time).1 = none

def hintStep (s : HintState) (call : HintCall) : HintState :=
  match commonPowerHint codes s.info call.hint call.time with
  | (none, info) => { s with info }
  | (some _, info) => ⟨info, call :: s.accepted⟩

def runHints (s : HintState) (calls : List HintCall) : HintState := calls.foldl (hintStep codes) s

/-- The last call of a kind that was let through. -/
def lastAccepted (s : HintState) (hint : Nat) : Option HintCall := s.accepted.find? (·.hint = hint)

/-- A statement about each call of a run and the state it finds.  It is about the kinds that
have an interval. -/
def EachCall (memory : HintInfo) (calls : List HintCall) (P : HintState → HintCall → Prop) : Prop :=
  ∀ before call after, calls = before ++ call :: after → call.hint ≤ codes.MAX_POWER_HINT_COUNT →
    (hintStart codes memory).info.hint_interval call.hint ≠ 0 → P (runHints codes (hintStart codes memory) before) call

/-- A call is rejected just in case one of its kind was let through less than the interval
before it. -/
def RateLimited (memory : HintInfo) (calls : List HintCall) : Prop :=
  EachCall codes memory calls fun s call =>
    Rejected codes s call ↔ ∃ prev ∈ s.accepted, prev.hint = call.hint ∧
      Recent ((hintStart codes memory).info.hint_interval call.hint).toNat prev.time call.time

/-- Every index is inside the arrays. -/
def IndicesInside (memory : HintInfo) (calls : List HintCall) : Prop :=
  ∀ hint ∈ (runHints codes (hintStart codes memory) calls).info.used, hint < codes.MAX_POWER_HINT_COUNT

/-- Each call is of a kind inside the arrays, its stamp fits to that of the last call of its
kind that was let through, and where there is none, what was in memory does not reject it. -/
def StampsFitAll (memory : HintInfo) (calls : List HintCall) : Prop :=
  EachCall codes memory calls fun s call =>
    call.hint < codes.MAX_POWER_HINT_COUNT ∧
      match lastAccepted s call.hint with
      | none => ¬ StampRecent ((hintStart codes memory).info.hint_interval call.hint) (memory.hint_time call.hint) call.time
      | some prev => StampsFit ((hintStart codes memory).info.hint_interval call.hint).toNat prev.time call.time

/-! ## What a call does -/

variable {codes} {memory : HintInfo} {s : HintState} {call : HintCall}

theorem rejected_iff :
    Rejected codes s call ↔ codes.MAX_POWER_HINT_COUNT ≤ call.hint ∨
      s.info.hint_interval call.hint ≠ 0 ∧
        StampRecent (s.info.hint_interval call.hint) (s.info.hint_time call.hint) call.time := by
  unfold Rejected commonPowerHint checkHint StampRecent
  by_cases hmax : codes.MAX_POWER_HINT_COUNT ≤ call.hint
  · rw [if_pos hmax]
    exact iff_of_true rfl (.inl hmax)
  · rw [if_neg hmax, or_iff_right hmax]
    dsimp only
    split_ifs with hrecent
    · exact iff_of_true rfl ⟨hrecent.2.1, hrecent.1, hrecent.2.2⟩
    · exact iff_of_false (fun h => by cases h) fun ⟨hinterval, hzero, hlt⟩ => hrecent ⟨hzero, hinterval, hlt⟩

/-- A call that is rejected changes nothing but the record of the indices; one that is let
through sets the time of its kind. -/
theorem hintStep_spec (codes : HintCodes) (s : HintState) (call : HintCall) :
    (∃ used, (∀ hint ∈ used, hint < codes.MAX_POWER_HINT_COUNT) ∧
        (hintStep codes s call).info.used = s.info.used ++ used) ∧
      (hintStep codes s call).info.hint_interval = s.info.hint_interval ∧
      ((Rejected codes s call ∧ (hintStep codes s call).info.hint_time = s.info.hint_time ∧
          (hintStep codes s call).accepted = s.accepted) ∨
        (¬ Rejected codes s call ∧
          (hintStep codes s call).info.hint_time = Function.update s.info.hint_time call.hint call.time.stamp ∧
          (hintStep codes s call).accepted = call :: s.accepted)) := by
  unfold Rejected hintStep commonPowerHint checkHint
  by_cases hmax : codes.MAX_POWER_HINT_COUNT ≤ call.hint
  · rw [if_pos hmax]
    exact ⟨⟨[], fun _ h => absurd h List.not_mem_nil, (List.append_nil _).symm⟩, rfl, .inl ⟨rfl, rfl, rfl⟩⟩
  · rw [if_neg hmax]
    have hinside : call.hint < codes.MAX_POWER_HINT_COUNT := Nat.lt_of_not_le hmax
    dsimp only
    split_ifs with hrecent
    · refine ⟨⟨[call.hint], fun hint h => ?_, rfl⟩, rfl, .inl ⟨rfl, rfl, rfl⟩⟩
      rwa [List.mem_singleton.mp h]
    · refine ⟨⟨[call.hint, call.hint], fun hint h => ?_, List.append_assoc _ _ _⟩, rfl,
        .inr ⟨fun h => (by cases h), rfl, rfl⟩⟩
      rcases List.mem_cons.mp h with rfl | h
      · exact hinside
      · rwa [List.mem_singleton.mp h]

/-- What holds between two calls: the time of a kind is the stamp of the last call of it that
was let through. -/
structure HintInv (codes : HintCodes) (memory : HintInfo) (s : HintState) : Prop where
  intervals : s.info.hint_interval = (hintStart codes memory).info.hint_interval
  times : ∀ hint, s.info.hint_time hint =
    ((lastAccepted s hint).map fun prev => prev.time.stamp).getD (memory.hint_time hint)
  inside : ∀ call ∈ s.accepted, call.hint < codes.MAX_POWER_HINT_COUNT
  sorted : s.accepted.Pairwise fun later earlier => earlier.time.nsec ≤ later.time.nsec

theorem hintStart_inv (memory : HintInfo) : HintInv codes memory (hintStart codes memory) :=
  ⟨rfl, fun _ => rfl, fun _ h => absurd h List.not_mem_nil, .nil⟩

/-- **Step.** -/
theorem HintInv.step (h : HintInv codes memory s)
    (hclock : ∀ prev ∈ s.accepted, prev.time.nsec ≤ call.time.nsec) :
    HintInv codes memory (hintStep codes s call) := by
  obtain ⟨-, hintervals, ⟨-, htimes, haccepted⟩ | ⟨hlet, htimes, haccepted⟩⟩ := hintStep_spec codes s call
  · refine ⟨hintervals.trans h.intervals, fun hint => ?_, ?_, ?_⟩
    · unfold lastAccepted
      rw [htimes, haccepted]
      exact h.times hint
    · rw [haccepted]
      exact h.inside
    · rw [haccepted]
      exact h.sorted
  · refine ⟨hintervals.trans h.intervals, fun hint => ?_, ?_, ?_⟩
    · unfold lastAccepted
      rw [htimes, haccepted]
      by_cases hkind : call.hint = hint
      · rw [List.find?_cons_of_pos (by simpa using hkind), hkind, Function.update_self]
        rfl
      · rw [List.find?_cons_of_neg (by simpa using hkind), Function.update_of_ne (Ne.symm hkind)]
        exact h.times hint
    · rw [haccepted]
      refine List.forall_mem_cons.mpr ⟨?_, h.inside⟩
      by_contra hmax
      exact hlet (rejected_iff.mpr (.inl (Nat.le_of_not_lt hmax)))
    · rw [haccepted]
      exact List.pairwise_cons.mpr ⟨hclock, h.sorted⟩

/-- **Run.** -/
theorem runHints_inv {calls : List HintCall} (hclock : calls.Pairwise fun a b => a.time.nsec ≤ b.time.nsec) :
    HintInv codes memory (runHints codes (hintStart codes memory) calls) ∧
      ∀ prev ∈ (runHints codes (hintStart codes memory) calls).accepted, prev ∈ calls := by
  induction calls using List.reverseRecOn with
  | nil => exact ⟨hintStart_inv memory, fun _ h => absurd h List.not_mem_nil⟩
  | append_singleton calls call ih =>
    obtain ⟨hcalls, -, hlast⟩ := List.pairwise_append.mp hclock
    obtain ⟨hinv, hmem⟩ := ih hcalls
    have hstep : runHints codes (hintStart codes memory) (calls ++ [call]) =
        hintStep codes (runHints codes (hintStart codes memory) calls) call := List.foldl_append
    rw [hstep]
    refine ⟨hinv.step fun prev hprev => hlast prev (hmem prev hprev) call (List.mem_singleton.mpr rfl),
      fun prev hprev => ?_⟩
    obtain ⟨-, -, ⟨-, -, haccepted⟩ | ⟨-, -, haccepted⟩⟩ :=
      hintStep_spec codes (runHints codes (hintStart codes memory) calls) call
    · rw [haccepted] at hprev
      exact List.mem_append_left _ (hmem prev hprev)
    · rw [haccepted] at hprev
      rcases List.mem_cons.mp hprev with rfl | hprev
      · exact List.mem_append_right _ (List.mem_singleton.mpr rfl)
      · exact List.mem_append_left _ (hmem prev hprev)

/-- The indices of a run: those of `common_power_open`, and those of the calls, which are
inside the arrays. -/
theorem runHints_used (memory : HintInfo) (calls : List HintCall) :
    ∃ used, (∀ hint ∈ used, hint < codes.MAX_POWER_HINT_COUNT) ∧
      (runHints codes (hintStart codes memory) calls).info.used =
        [codes.VSYNC, codes.INTERACTION, codes.SET_PROFILE, codes.LAUNCH, codes.VIDEO_DECODE, codes.VIDEO_ENCODE,
          codes.LOW_POWER] ++ used := by
  induction calls using List.reverseRecOn with
  | nil => exact ⟨[], fun _ h => absurd h List.not_mem_nil, rfl⟩
  | append_singleton calls call ih =>
    obtain ⟨used, hinside, hused⟩ := ih
    obtain ⟨⟨own, hown, hstep⟩, -⟩ := hintStep_spec codes (runHints codes (hintStart codes memory) calls) call
    refine ⟨used ++ own, fun hint h => (List.mem_append.mp h).elim (hinside hint) (hown hint), ?_⟩
    have hlast : runHints codes (hintStart codes memory) (calls ++ [call]) =
        hintStep codes (runHints codes (hintStart codes memory) calls) call := List.foldl_append
    rw [hlast, hstep, hused, List.append_assoc]

/-- Among the calls of a kind the last one is the nearest. -/
theorem exists_recent_iff {accepted : List HintCall} {interval : Nat}
    (hsorted : accepted.Pairwise fun later earlier => earlier.time.nsec ≤ later.time.nsec) :
    (∃ prev ∈ accepted, prev.hint = call.hint ∧ Recent interval prev.time call.time) ↔
      ∃ prev, accepted.find? (·.hint = call.hint) = some prev ∧ Recent interval prev.time call.time := by
  induction accepted with
  | nil => simp
  | cons later accepted ih =>
    obtain ⟨hlater, hsorted⟩ := List.pairwise_cons.mp hsorted
    by_cases hkind : later.hint = call.hint
    · rw [List.find?_cons_of_pos (by simpa using hkind)]
      constructor
      · rintro ⟨prev, hprev, -, hrecent⟩
        refine ⟨later, rfl, ?_⟩
        rcases List.mem_cons.mp hprev with rfl | hprev
        · exact hrecent
        · have := hlater prev hprev
          unfold Recent at hrecent ⊢
          omega
      · rintro ⟨prev, hfound, hrecent⟩
        obtain rfl := Option.some.inj hfound
        exact ⟨later, List.mem_cons_self, hkind, hrecent⟩
    · rw [List.find?_cons_of_neg (by simpa using hkind), ← ih hsorted]
      constructor
      · rintro ⟨prev, hprev, hsame, hrecent⟩
        rcases List.mem_cons.mp hprev with rfl | hprev
        · exact absurd hsame hkind
        · exact ⟨prev, hprev, hsame, hrecent⟩
      · rintro ⟨prev, hprev, hrest⟩
        exact ⟨prev, List.mem_cons_of_mem _ hprev, hrest⟩

theorem call_iff (h : HintInv codes memory s) (hclock : ∀ prev ∈ s.accepted, prev.time.nsec ≤ call.time.nsec)
    (hmax : call.hint ≤ codes.MAX_POWER_HINT_COUNT)
    (hinterval : (hintStart codes memory).info.hint_interval call.hint ≠ 0)
    (hsmall : ((hintStart codes memory).info.hint_interval call.hint).toNat < 2 ^ 31) :
    (Rejected codes s call ↔ ∃ prev ∈ s.accepted, prev.hint = call.hint ∧
        Recent ((hintStart codes memory).info.hint_interval call.hint).toNat prev.time call.time) ↔
      call.hint < codes.MAX_POWER_HINT_COUNT ∧
        match lastAccepted s call.hint with
        | none =>
          ¬ StampRecent ((hintStart codes memory).info.hint_interval call.hint) (memory.hint_time call.hint) call.time
        | some prev =>
          StampsFit ((hintStart codes memory).info.hint_interval call.hint).toNat prev.time call.time := by
  rw [rejected_iff, exists_recent_iff h.sorted, h.intervals, and_iff_right hinterval]
  rcases Nat.lt_or_ge call.hint codes.MAX_POWER_HINT_COUNT with hinside | hbehind
  · rw [or_iff_right (Nat.not_le.mpr hinside), and_iff_right hinside, h.times]
    unfold lastAccepted
    cases hlast : s.accepted.find? (·.hint = call.hint) with
    | none =>
      refine iff_false_right ?_
      rintro ⟨prev, hnone, -⟩
      cases hnone
    | some prev =>
      have hprev := List.mem_of_find?_eq_some hlast
      simp only [Option.some.injEq, exists_eq_left']
      exact stampRecent_iff (hclock prev hprev) hsmall
  · have hnone : ¬ ∃ prev, s.accepted.find? (·.hint = call.hint) = some prev ∧
        Recent ((hintStart codes memory).info.hint_interval call.hint).toNat prev.time call.time := by
      rintro ⟨prev, hfound, -⟩
      have hkind : prev.hint = call.hint := by simpa using List.find?_some hfound
      have := h.inside prev (List.mem_of_find?_eq_some hfound)
      omega
    exact iff_of_false (fun hiff => hnone (hiff.mp (.inl hbehind))) fun hfit => absurd hfit.1 (Nat.not_lt.mpr hbehind)

end

/-! ## Rate limits -/

section

variable (codes : HintCodes) (memory : HintInfo)

/-- One index is always behind the arrays; and the calls keep to the intervals where the
stamps fit. -/
theorem hint_rate_limit (calls : List HintCall) (hclock : calls.Pairwise fun a b => a.time.nsec ≤ b.time.nsec) :
    ¬ (IndicesInside codes memory calls ∧ RateLimited codes memory calls) ∧
      (∃ used, (∀ hint ∈ used, hint < codes.MAX_POWER_HINT_COUNT) ∧
        (runHints codes (hintStart codes memory) calls).info.used = (hintStart codes memory).info.used ++ used) ∧
      ((∀ hint ≤ codes.MAX_POWER_HINT_COUNT,
          ((hintStart codes memory).info.hint_interval hint).toNat < 2 ^ 31) →
        (RateLimited codes memory calls ↔ StampsFitAll codes memory calls)) := by
  obtain ⟨used, hinside, hused⟩ := @runHints_used codes memory calls
  refine ⟨?_, ⟨used, hinside, hused⟩, fun hsmall => ?_⟩
  · rintro ⟨hindices, -⟩
    refine absurd (hindices codes.SET_PROFILE ?_) (Nat.lt_irrefl _)
    rw [hused]
    simp
  · unfold RateLimited StampsFitAll EachCall
    refine forall_congr' fun before => forall_congr' fun call => forall_congr' fun after =>
      forall_congr' fun hcalls => forall_congr' fun hmax => forall_congr' fun hinterval => ?_
    rw [hcalls] at hclock
    obtain ⟨hbefore, -, hlast⟩ := List.pairwise_append.mp hclock
    obtain ⟨hinv, hmem⟩ := @runHints_inv codes memory before hbefore
    exact call_iff hinv (fun prev hprev => hlast prev (hmem prev hprev) call List.mem_cons_self) hmax hinterval
      (hsmall call.hint hmax)

/-- The intervals are small when memory was. -/
theorem hintStart_small (h : ∀ hint, (memory.hint_interval hint).toNat < 2 ^ 31) (hint : Nat) :
    ((hintStart codes memory).info.hint_interval hint).toNat < 2 ^ 31 := by
  have hset {info : HintInfo} {kind : Nat} {usec : BitVec 64} (husec : usec.toNat < 2 ^ 31)
      (hinfo : ∀ hint, (info.hint_interval hint).toNat < 2 ^ 31) (hint : Nat) :
      ((info.setInterval kind usec).hint_interval hint).toNat < 2 ^ 31 := by
    unfold HintInfo.setInterval
    dsimp only
    by_cases hkind : hint = kind
    · rw [hkind, Function.update_self]
      exact husec
    · rw [Function.update_of_ne hkind]
      exact hinfo hint
  unfold hintStart openHints
  exact hset (by decide) (hset (by decide) (hset (by decide) (hset (by decide) (hset (by decide) (hset (by decide)
    (hset (by decide) h)))))) hint

end

section

def someCodes : HintCodes := ⟨1, 2, 9, 8, 4, 3, 5⟩

def zeroedMemory : HintInfo := ⟨fun _ => 0, fun _ => 0, []⟩

/-- A second launch half a second after the first one, when the microseconds of a `long`
have turned over. -/
def launches : List HintCall :=
  [⟨8, ⟨2147, 0, by decide, by decide⟩⟩, ⟨8, ⟨2147, 500000000, by decide, by decide⟩⟩]

theorem hint_rate_limit_of_launches :
    ¬ (IndicesInside someCodes zeroedMemory launches ∧ RateLimited someCodes zeroedMemory launches) ∧
      (RateLimited someCodes zeroedMemory launches ↔ StampsFitAll someCodes zeroedMemory launches) := by
  obtain ⟨hnever, -, hiff⟩ := hint_rate_limit someCodes zeroedMemory launches (by decide)
  exact ⟨hnever, hiff fun hint _ =>
    hintStart_small someCodes zeroedMemory (fun _ => show (0 : BitVec 64).toNat < 2 ^ 31 by decide) hint⟩

/-- The index of one interval is behind the array, and both launches are let through. -/
theorem launches_let_through :
    (¬ ∀ (codes : HintCodes) (memory : HintInfo) (calls : List HintCall),
        calls.Pairwise (fun a b => a.time.nsec ≤ b.time.nsec) → IndicesInside codes memory calls) ∧
      ¬ ∀ (codes : HintCodes) (memory : HintInfo) (calls : List HintCall),
        calls.Pairwise (fun a b => a.time.nsec ≤ b.time.nsec) → RateLimited codes memory calls := by
  constructor
  · intro h
    exact absurd (h someCodes zeroedMemory [] .nil 9 (by decide)) (by decide)
  · intro h
    have hlimited :=
      h someCodes zeroedMemory launches (by decide) [launches[0]] launches[1] [] rfl (by decide) (by decide)
    have hrecent : ∃ prev ∈ (runHints someCodes (hintStart someCodes zeroedMemory) [launches[0]]).accepted,
        prev.hint = launches[1].hint ∧ Recent 1500000 prev.time launches[1].time :=
      ⟨launches[0], List.mem_cons_self, rfl, by decide⟩
    have hrejected := hlimited.mpr hrecent
    unfold Rejected at hrejected
    revert hrejected
    decide

end

end MochaHal.Power
