import MochaHal.Lib.Decimal

/-! The commands for the PM QoS nodes with a priority.  A command is four decimal numbers,
printed into a buffer that the longest of them fills to the last byte
(`command_round_trip`). -/

namespace MochaHal.Power

open MochaHal.Decimal

def COMMAND_SIZE : Nat := 20

def PM_QOS_DEFAULT_VALUE : Int := -1

def PM_QOS_BOOST_PRIORITY : Int := 35

def PM_QOS_APP_PROFILE_PRIORITY : Int := 40

/-- The text of a command, however long. -/
def constraintText (priority max min : Int) : List Char :=
  intDecimal max ++ ' ' :: (intDecimal min ++ ' ' :: (intDecimal priority ++ [' ', '0']))

/-- `createConstraintCommand`: what stands in the buffer before its end.  `snprintf` leaves
out what does not fit. -/
def createConstraintCommand (size : Nat) (priority max min : Int) : List Char :=
  (constraintText priority max min).take (size - 1)

/-- `openPmQosNode`, where `open` returned `pm_qos_fd`: what it returns, and what it writes to
the node. -/
def openPmQosNode (pm_qos_fd priority max min : Int) : Int × Option (List Char) :=
  if pm_qos_fd < 0 then (-1, none)
  else (pm_qos_fd, some (createConstraintCommand COMMAND_SIZE priority max min))

/-- `TimeoutPoker::requestPmQos`. -/
def requestPmQos (pm_qos_fd priority max min : Int) : Int × Option (List Char) :=
  if pm_qos_fd < 0 then (-1, none)
  else (pm_qos_fd, some (createConstraintCommand COMMAND_SIZE priority max min))

/-- What callers pass: one bound and the default for the other. -/
structure Constraint (priority max min : Int) : Prop where
  bound : (INT_MIN ≤ max ∧ max ≤ INT_MAX ∧ min = PM_QOS_DEFAULT_VALUE) ∨
    (INT_MIN ≤ min ∧ min ≤ INT_MAX ∧ max = PM_QOS_DEFAULT_VALUE)
  known : priority = PM_QOS_BOOST_PRIORITY ∨ priority = PM_QOS_APP_PROFILE_PRIORITY

section

variable {priority max min : Int}

theorem constraintText_eq :
    constraintText priority max min = [' '].intercalate ([max, min, priority, 0].map intDecimal) := rfl

theorem length_constraintText :
    (constraintText priority max min).length =
      (intDecimal max).length + (intDecimal min).length + (intDecimal priority).length + 4 := by
  unfold constraintText
  rw [List.length_append, List.length_cons, List.length_append, List.length_cons, List.length_append]
  show _ + (_ + (_ + 2 + 1) + 1) = _
  omega

theorem length_intDecimal_int {v : Int} (hmin : INT_MIN ≤ v) (hmax : v ≤ INT_MAX) :
    (intDecimal v).length ≤ 11 := by
  have habs : v.natAbs < 10 ^ 10 := by
    unfold INT_MIN at hmin
    unfold INT_MAX at hmax
    omega
  have := length_intDecimal_le habs
  split at this <;> omega

/-- A command and its end fit into the buffer. -/
theorem constraintText_fits (h : Constraint priority max min) :
    (constraintText priority max min).length + 1 ≤ COMMAND_SIZE := by
  have hdefault : (intDecimal PM_QOS_DEFAULT_VALUE).length = 2 := by decide
  have hpriority : (intDecimal priority).length = 2 := by
    rcases h.known with rfl | rfl <;> decide
  rw [length_constraintText, hpriority]
  unfold COMMAND_SIZE
  rcases h.bound with ⟨hlow, hhigh, rfl⟩ | ⟨hlow, hhigh, rfl⟩
  · have := length_intDecimal_int hlow hhigh
    omega
  · have := length_intDecimal_int hlow hhigh
    omega

theorem createConstraintCommand_eq (h : Constraint priority max min) :
    createConstraintCommand COMMAND_SIZE priority max min = constraintText priority max min :=
  List.take_of_length_le (Nat.le_sub_of_add_le (constraintText_fits h))

theorem readInts_constraintText : readInts (constraintText priority max min) = some [max, min, priority, 0] := by
  rw [constraintText_eq]
  exact readInts_intercalate (List.cons_ne_nil _ _)

end

/-- The kernel gets the whole command and reads what was asked for. -/
theorem command_round_trip (pm_qos_fd priority max min : Int) (hopen : 0 ≤ pm_qos_fd)
    (h : Constraint priority max min) :
    createConstraintCommand COMMAND_SIZE priority max min = constraintText priority max min ∧
      (∃ command, openPmQosNode pm_qos_fd priority max min = (pm_qos_fd, some command) ∧
        requestPmQos pm_qos_fd priority max min = (pm_qos_fd, some command) ∧
        readInts command = some [max, min, priority, 0]) ∧
      ∀ priority' max' min', Constraint priority' max' min' →
        createConstraintCommand COMMAND_SIZE priority' max' min' = createConstraintCommand COMMAND_SIZE priority max min →
        (priority', max', min') = (priority, max, min) := by
  have hwhole := createConstraintCommand_eq h
  refine ⟨hwhole, ⟨constraintText priority max min, ?_, ?_, readInts_constraintText⟩,
    fun priority' max' min' h' heq => ?_⟩
  · unfold openPmQosNode
    rw [if_neg (Int.not_lt.mpr hopen), hwhole]
  · unfold requestPmQos
    rw [if_neg (Int.not_lt.mpr hopen), hwhole]
  · rw [createConstraintCommand_eq h', hwhole] at heq
    have hread := congrArg readInts heq
    rw [readInts_constraintText, readInts_constraintText] at hread
    cases hread
    rfl

/-- The longest command: 19 characters and the end. -/
theorem command_round_trip_longest :
    createConstraintCommand COMMAND_SIZE PM_QOS_BOOST_PRIORITY INT_MIN PM_QOS_DEFAULT_VALUE =
      "-2147483648 -1 35 0".toList := by
  have h : Constraint PM_QOS_BOOST_PRIORITY INT_MIN PM_QOS_DEFAULT_VALUE :=
    ⟨.inl ⟨Int.le_refl _, by decide, rfl⟩, .inl rfl⟩
  rw [(command_round_trip 3 PM_QOS_BOOST_PRIORITY INT_MIN PM_QOS_DEFAULT_VALUE (by decide) h).1]
  decide

end MochaHal.Power
