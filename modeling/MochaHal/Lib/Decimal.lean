import Mathlib.Tactic.Common
import Mathlib.Order.Lattice
import Mathlib.Algebra.Order.Group.Int
import Mathlib.Algebra.Group.Nat.Defs

/-! Decimal numbers as the C library prints and reads them.  `decimal` is `%u` and
`intDecimal` is `%d`; `atoi` reads what it can at the front of a text, `readInt` a whole
field.  Both read back what was printed. -/

namespace MochaHal.Decimal

/-! ## Printing and reading -/

def decimal (n : Nat) : List Char := Nat.toDigits 10 n

def intDecimal (v : Int) : List Char := if v < 0 then '-' :: decimal v.natAbs else decimal v.natAbs

def isSpaceChar (c : Char) : Bool := c.toNat = 32 ∨ 9 ≤ c.toNat ∧ c.toNat ≤ 13

/-- The digits at the front. -/
def readDigits (text : List Char) : Nat := Nat.ofDigitChars 10 (text.takeWhile Char.isDigit) 0

def readSigned (text : List Char) : Int :=
  if text.head? = some '-' then -readDigits text.tail
  else if text.head? = some '+' then readDigits text.tail
  else readDigits text

def INT_MIN : Int := -2 ^ 31

def INT_MAX : Int := 2 ^ 31 - 1

/-- `atoi` where a `long` has 32 bits: the number is clamped. -/
def atoi (text : List Char) : Int := max INT_MIN (min INT_MAX (readSigned (text.dropWhile isSpaceChar)))

/-- A number of `scanf`, and what stands behind it. -/
def scanNumber (text : List Char) : Option (Int × List Char) :=
  let text := text.dropWhile isSpaceChar
  let digits := if text.head? = some '-' ∨ text.head? = some '+' then text.tail else text
  if digits.head?.any Char.isDigit then some (readSigned text, digits.dropWhile Char.isDigit) else none

/-- A field that is a decimal number as a whole. -/
def readInt (field : List Char) : Option Int :=
  let digits := if field.head? = some '-' then field.tail else field
  if digits ≠ [] ∧ digits.all Char.isDigit then some (readSigned field) else none

/-- The fields between single spaces. -/
def readInts (text : List Char) : Option (List Int) := (text.splitOn ' ').mapM readInt

/-! ## Digits -/

theorem decimal_isDigit {n : Nat} {c : Char} (h : c ∈ decimal n) : c.isDigit = true :=
  Nat.isDigit_of_mem_toDigits (by decide) (by decide) h

theorem decimal_ne_nil (n : Nat) : decimal n ≠ [] := Nat.toDigits_ne_nil

theorem length_decimal_le {n k : Nat} (hk : 0 < k) (hn : n < 10 ^ k) : (decimal n).length ≤ k :=
  (Nat.length_toDigits_le_iff (by decide) hk).mpr hn

/-- A digit is neither a sign nor a space. -/
theorem isDigit_ne {c : Char} (h : c.isDigit = true) :
    c ≠ '-' ∧ c ≠ '+' ∧ c ≠ ' ' ∧ c ≠ '\n' ∧ isSpaceChar c = false := by
  have hrange : 48 ≤ c.toNat ∧ c.toNat ≤ 57 := by
    simpa [Char.isDigit, UInt32.le_iff_toNat_le] using h
  refine ⟨?_, ?_, ?_, ?_, ?_⟩
  · rintro rfl
    exact absurd hrange (by decide)
  · rintro rfl
    exact absurd hrange (by decide)
  · rintro rfl
    exact absurd hrange (by decide)
  · rintro rfl
    exact absurd hrange (by decide)
  · unfold isSpaceChar
    rw [decide_eq_false_iff_not]
    omega

theorem decimal_head (n : Nat) : ∃ c rest, decimal n = c :: rest ∧ c.isDigit = true := by
  obtain ⟨c, rest, h⟩ := List.exists_cons_of_ne_nil (decimal_ne_nil n)
  exact ⟨c, rest, h, decimal_isDigit (h ▸ List.mem_cons_self)⟩

theorem space_not_mem_intDecimal (v : Int) : ' ' ∉ intDecimal v := by
  intro h
  have hdigits : ' ' ∉ decimal v.natAbs := fun h => (isDigit_ne (decimal_isDigit h)).2.2.1 rfl
  unfold intDecimal at h
  split at h
  · rcases List.mem_cons.mp h with h | h
    · cases h
    · exact hdigits h
  · exact hdigits h

/-- A number of at most ten digits, with its sign. -/
theorem length_intDecimal_le {v : Int} (h : v.natAbs < 10 ^ 10) :
    (intDecimal v).length ≤ (if v < 0 then 1 else 0) + 10 := by
  have := @length_decimal_le v.natAbs 10 (by decide) h
  unfold intDecimal
  split
  · rw [List.length_cons]
    omega
  · omega

/-! ## Reading what was printed -/

section

variable {n : Nat} {v : Int} {rest : List Char}

/-- A text that does not go on with a digit. -/
def Ends (rest : List Char) : Prop := ∀ c ∈ rest.head?, c.isDigit = false

theorem takeWhile_decimal (h : Ends rest) : (decimal n ++ rest).takeWhile Char.isDigit = decimal n := by
  rw [List.takeWhile_append_of_pos fun c hc => decimal_isDigit hc]
  cases rest with
  | nil => exact List.append_nil _
  | cons c rest => rw [List.takeWhile_cons_of_neg (by rw [h c rfl]; exact Bool.false_ne_true), List.append_nil]

theorem readDigits_decimal (h : Ends rest) : readDigits (decimal n ++ rest) = n := by
  unfold readDigits
  rw [takeWhile_decimal h]
  exact Nat.ofDigitChars_ten_toDigits

theorem readSigned_intDecimal (h : Ends rest) : readSigned (intDecimal v ++ rest) = v := by
  unfold intDecimal readSigned
  split
  case isTrue hneg =>
    rw [List.cons_append, List.head?_cons, if_pos rfl, List.tail_cons, readDigits_decimal h]
    omega
  case isFalse hpos =>
    obtain ⟨c, tail, hc, hdigit⟩ := decimal_head v.natAbs
    have hhead : (decimal v.natAbs ++ rest).head? = some c := by rw [hc]; rfl
    obtain ⟨hminus, hplus, -⟩ := isDigit_ne hdigit
    rw [hhead, if_neg (by simpa using hminus), if_neg (by simpa using hplus), readDigits_decimal h]
    omega

theorem dropWhile_intDecimal (v : Int) (rest : List Char) :
    (intDecimal v ++ rest).dropWhile isSpaceChar = intDecimal v ++ rest := by
  unfold intDecimal
  split
  · rfl
  · obtain ⟨c, tail, hc, hdigit⟩ := decimal_head v.natAbs
    rw [hc, List.cons_append, List.dropWhile_cons_of_neg]
    rw [(isDigit_ne hdigit).2.2.2.2]
    exact Bool.false_ne_true

theorem atoi_intDecimal (h : Ends rest) (hmin : INT_MIN ≤ v) (hmax : v ≤ INT_MAX) :
    atoi (intDecimal v ++ rest) = v := by
  unfold atoi
  rw [dropWhile_intDecimal, readSigned_intDecimal h, min_eq_right hmax, max_eq_right hmin]

/-- Reading stops behind the number. -/
theorem scanNumber_intDecimal (h : Ends rest) : scanNumber (intDecimal v ++ rest) = some (v, rest) := by
  have hdigits : (if (intDecimal v ++ rest).head? = some '-' ∨ (intDecimal v ++ rest).head? = some '+'
      then (intDecimal v ++ rest).tail else intDecimal v ++ rest) = decimal v.natAbs ++ rest := by
    unfold intDecimal
    split
    · rfl
    · obtain ⟨c, tail, hc, hdigit⟩ := decimal_head v.natAbs
      obtain ⟨hminus, hplus, -⟩ := isDigit_ne hdigit
      rw [hc, List.cons_append, List.head?_cons, if_neg (by simp [hminus, hplus])]
  have hrest : (decimal v.natAbs ++ rest).dropWhile Char.isDigit = rest := by
    rw [List.dropWhile_append_of_pos fun c hc => decimal_isDigit hc]
    cases rest with
    | nil => rfl
    | cons c rest => exact List.dropWhile_cons_of_neg (by rw [h c rfl]; exact Bool.false_ne_true)
  obtain ⟨c, tail, hc, hdigit⟩ := decimal_head v.natAbs
  have hsome : (decimal v.natAbs ++ rest).head?.any Char.isDigit = true := by
    rw [hc, List.cons_append, List.head?_cons, Option.any_some, hdigit]
  unfold scanNumber
  dsimp only
  rw [dropWhile_intDecimal, hdigits, if_pos hsome, hrest, readSigned_intDecimal h]

theorem atoi_decimal (h : Ends rest) (hn : (n : Int) ≤ INT_MAX) : atoi (decimal n ++ rest) = n := by
  have hprint : intDecimal n = decimal n := by
    unfold intDecimal
    rw [if_neg (by omega), Int.natAbs_natCast]
  rw [← hprint]
  exact atoi_intDecimal h (Int.le_trans (by decide) (Int.natCast_nonneg n)) hn

theorem readInt_intDecimal (v : Int) : readInt (intDecimal v) = some v := by
  have hread : readSigned (intDecimal v) = v := by
    have := @readSigned_intDecimal v [] (fun c hc => (by cases hc))
    rwa [List.append_nil] at this
  have hdigits : (if (intDecimal v).head? = some '-' then (intDecimal v).tail else intDecimal v) =
      decimal v.natAbs := by
    unfold intDecimal
    split
    · rfl
    · obtain ⟨c, tail, hc, hdigit⟩ := decimal_head v.natAbs
      rw [hc, List.head?_cons, if_neg (by simpa using (isDigit_ne hdigit).1)]
  unfold readInt
  dsimp only
  rw [hdigits, hread, if_pos ⟨decimal_ne_nil _, List.all_eq_true.mpr fun c hc => decimal_isDigit hc⟩]

end

theorem scanNumber_length {text rest : List Char} {v : Int} (h : scanNumber text = some (v, rest)) :
    rest.length < text.length := by
  have hle : ∀ (p : Char → Bool) (t : List Char), (t.dropWhile p).length ≤ t.length := fun p t =>
    (List.dropWhile_sublist p).length_le
  unfold scanNumber at h
  dsimp only at h
  generalize hd : (if (text.dropWhile isSpaceChar).head? = some '-' ∨
    (text.dropWhile isSpaceChar).head? = some '+' then (text.dropWhile isSpaceChar).tail
    else text.dropWhile isSpaceChar) = digits at h
  obtain ⟨hany, h⟩ := Option.ite_none_right_eq_some.mp h
  cases h
  have hdigits : digits.length ≤ text.length := by
    have hspace := hle isSpaceChar text
    subst hd
    split
    · rw [List.length_tail]
      omega
    · exact hspace
  cases digits with
  | nil => cases hany
  | cons c digits =>
    have hc : c.isDigit = true := by simpa using hany
    rw [List.dropWhile_cons_of_pos hc]
    have := hle Char.isDigit digits
    rw [List.length_cons] at hdigits
    omega

/-- **Round trip.** -/
theorem readInts_intercalate {vs : List Int} (h : vs ≠ []) :
    readInts ([' '].intercalate (vs.map intDecimal)) = some vs := by
  have hspace : ∀ field ∈ vs.map intDecimal, ' ' ∉ field := by
    intro field hfield
    obtain ⟨v, -, rfl⟩ := List.mem_map.mp hfield
    exact space_not_mem_intDecimal v
  have hread : ∀ vs : List Int, (vs.map intDecimal).mapM readInt = some vs := by
    intro vs
    induction vs with
    | nil => rfl
    | cons v vs ih => rw [List.map_cons, List.mapM_cons, readInt_intDecimal, ih]; rfl
  unfold readInts
  rw [List.splitOn_intercalate ' ' hspace (by simpa using h), hread]

/-! ## Fewer digits -/

theorem ofDigitChars_lt (digits : List Char) (h : ∀ c ∈ digits, c.isDigit = true) (init : Nat) :
    Nat.ofDigitChars 10 digits init < (init + 1) * 10 ^ digits.length := by
  induction digits generalizing init with
  | nil =>
    rw [Nat.ofDigitChars_nil, List.length_nil]
    omega
  | cons c digits ih =>
    have hdigit : c.toNat ≤ 57 ∧ 48 ≤ c.toNat := by
      simpa [Char.isDigit, UInt32.le_iff_toNat_le, and_comm] using h c List.mem_cons_self
    have hzero : '0'.toNat = 48 := rfl
    calc Nat.ofDigitChars 10 (c :: digits) init
        = Nat.ofDigitChars 10 digits (10 * init + (c.toNat - '0'.toNat)) := Nat.ofDigitChars_cons
      _ < (10 * init + (c.toNat - '0'.toNat) + 1) * 10 ^ digits.length :=
          ih (fun d hd => h d (List.mem_cons_of_mem c hd)) _
      _ ≤ ((init + 1) * 10) * 10 ^ digits.length := Nat.mul_le_mul_right _ (by omega)
      _ = (init + 1) * 10 ^ (c :: digits).length := by
          rw [List.length_cons, Nat.pow_succ, Nat.mul_assoc, Nat.mul_comm 10]

theorem readDigits_lt (text : List Char) : readDigits text < 10 ^ text.length := by
  have hall : ∀ c ∈ text.takeWhile Char.isDigit, c.isDigit = true := List.all_eq_true.mp List.all_takeWhile
  calc readDigits text < (0 + 1) * 10 ^ (text.takeWhile Char.isDigit).length := ofDigitChars_lt _ hall 0
    _ = 10 ^ (text.takeWhile Char.isDigit).length := by rw [Nat.zero_add, Nat.one_mul]
    _ ≤ 10 ^ text.length := Nat.pow_le_pow_right (by decide) (List.takeWhile_prefix _).length_le

/-- What is below a number that was read has no more digits than the text it was read from. -/
theorem length_decimal_le_of_lt_atoi {i : Nat} {text : List Char} (h : i < (atoi text).toNat) :
    (decimal i).length ≤ text.length := by
  have hsigned : (i : Int) < readSigned (text.dropWhile isSpaceChar) := by
    unfold atoi INT_MIN INT_MAX at h
    omega
  have hdrop : (text.dropWhile isSpaceChar).length ≤ text.length := (List.dropWhile_suffix _).length_le
  -- the digits stand at the front or behind a plus sign
  have hread : ∃ digits : List Char, digits.length ≤ text.length ∧ i < readDigits digits := by
    unfold readSigned at hsigned
    split at hsigned
    · omega
    split at hsigned
    · exact ⟨(text.dropWhile isSpaceChar).tail, by rw [List.length_tail]; omega, by omega⟩
    · exact ⟨text.dropWhile isSpaceChar, hdrop, by omega⟩
  obtain ⟨digits, hlength, hlt⟩ := hread
  have hpow := readDigits_lt digits
  by_cases hnil : digits.length = 0
  · rw [hnil] at hpow
    omega
  · exact (length_decimal_le (by omega) (hlt.trans hpow)).trans hlength

end MochaHal.Decimal
