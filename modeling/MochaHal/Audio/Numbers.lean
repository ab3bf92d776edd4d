import MochaHal.Audio.ConfigParser
import Mathlib.Data.List.TakeWhile

/-! The numbers of `configmgr/audio_config.c`.  `string_to_uint` leaves the reading to
`strtoul` and looks at where it stopped.  So it takes blanks and a sign before a numeral,
and the largest number for one that is too large (`string_to_uint_exact_iff`). -/

namespace MochaHal.Audio.Parser
open MochaHal.Decimal (isSpaceChar)

/-! ## Numerals -/

def numeralValue (base : Nat) (digits : List Char) : Nat := digits.foldl (fun v c => v * base + digitOf c) 0

/-- The numerals without a sign, and the numbers they stand for. -/
inductive Denotes : List Char → Nat → Prop
  | decimal {digits : List Char} (nonempty : digits ≠ []) (first : digits.head? ≠ some '0')
      (all : ∀ c ∈ digits, digitOf c < 10) : Denotes digits (numeralValue 10 digits)
  | octal {digits : List Char} (all : ∀ c ∈ digits, digitOf c < 8) : Denotes ('0' :: digits) (numeralValue 8 digits)
  | hexadecimal {x : Char} {digits : List Char} (letter : x = 'x' ∨ x = 'X') (nonempty : digits ≠ [])
      (all : ∀ c ∈ digits, digitOf c < 16) : Denotes ('0' :: x :: digits) (numeralValue 16 digits)

/-- The string is accepted when it is a numeral of 32 bits, and with the number it denotes. -/
def Exact (str : String) : Prop :=
  ∀ v, stringToUint str = some v ↔ ∃ n, Denotes str.toList n ∧ n < 2 ^ 32 ∧ v = BitVec.ofNat 32 n

/-- Blanks, a sign or none, and the rest. -/
structure Splits (text blanks sign body : List Char) : Prop where
  text : text = blanks ++ (sign ++ body)
  blanks : ∀ c ∈ blanks, isSpaceChar c = true
  sign : sign = [] ∨ sign = ['-'] ∨ sign = ['+']

/-- What `strtoul` makes of a number. -/
def strtoulResult (negative : Prop) [Decidable negative] (n : Nat) : BitVec 32 :=
  if n < 2 ^ 32 then if negative then -BitVec.ofNat 32 n else BitVec.ofNat 32 n else 0xFFFFFFFF

/-! ## The base -/

theorem digitOf_lt_ten {c : Char} (h : digitOf c < 10) : 48 ≤ c.toNat ∧ c.toNat ≤ 57 := by
  unfold digitOf at h
  split at h
  · assumption
  split at h
  · omega
  split at h
  · omega
  · omega

theorem Denotes.head {text : List Char} {n : Nat} (h : Denotes text n) :
    ∃ c rest, text = c :: rest ∧ 48 ≤ c.toNat ∧ c.toNat ≤ 57 := by
  cases h with
  | decimal nonempty first all =>
    obtain ⟨c, rest, rfl⟩ := List.exists_cons_of_ne_nil nonempty
    exact ⟨c, rest, rfl, digitOf_lt_ten (all c List.mem_cons_self)⟩
  | octal all => exact ⟨'0', _, rfl, by decide⟩
  | hexadecimal letter nonempty all => exact ⟨'0', _, rfl, by decide⟩

theorem numeralValue_zero (digits : List Char) : numeralValue 8 ('0' :: digits) = numeralValue 8 digits := rfl

theorem baseOf_decimal {text : List Char} (h : text.head? ≠ some '0') : baseOf text = (10, text) := by
  unfold baseOf
  split
  · exact absurd rfl h
  · exact absurd rfl h
  · rfl

theorem baseOf_octal {digits : List Char} (h : ∀ c ∈ digits, digitOf c < 8) :
    baseOf ('0' :: digits) = (8, '0' :: digits) := by
  rcases digits with _ | ⟨x, _ | ⟨d, rest⟩⟩
  · rfl
  · rfl
  · have hletter : ¬ ((x = 'x' ∨ x = 'X') ∧ digitOf d < 16) := by
      rintro ⟨rfl | rfl, -⟩
      · exact absurd (h 'x' List.mem_cons_self) (by decide)
      · exact absurd (h 'X' List.mem_cons_self) (by decide)
    exact if_neg hletter

theorem baseOf_hexadecimal {x : Char} {digits : List Char} (hx : x = 'x' ∨ x = 'X') (hne : digits ≠ [])
    (h : ∀ c ∈ digits, digitOf c < 16) : baseOf ('0' :: x :: digits) = (16, digits) := by
  obtain ⟨d, rest, rfl⟩ := List.exists_cons_of_ne_nil hne
  exact if_pos ⟨hx, h d List.mem_cons_self⟩

theorem baseOf_cases (text : List Char) :
    (∃ x digits, text = '0' :: x :: digits ∧ (x = 'x' ∨ x = 'X') ∧ baseOf text = (16, digits)) ∨
    (∃ digits, text = '0' :: digits ∧ baseOf text = (8, text)) ∨
    text.head? ≠ some '0' ∧ baseOf text = (10, text) := by
  unfold baseOf
  split
  case h_1 x d rest =>
    split
    case isTrue hletter => exact .inl ⟨x, d :: rest, rfl, hletter.1, rfl⟩
    case isFalse => exact .inr (.inl ⟨x :: d :: rest, rfl, rfl⟩)
  case h_2 rest _ => exact .inr (.inl ⟨rest, rfl, rfl⟩)
  case h_3 _ hzero =>
    refine .inr (.inr ⟨fun hfirst => ?_, rfl⟩)
    cases text with
    | nil => cases hfirst
    | cons c rest => exact hzero rest (by rw [Option.some.inj hfirst])

/-- The text behind the sign is a numeral when it has digits of its base and nothing else. -/
theorem denotes_iff (text : List Char) (n : Nat) :
    Denotes text n ↔ (baseOf text).2 ≠ [] ∧ (∀ c ∈ (baseOf text).2, digitOf c < (baseOf text).1) ∧
      n = numeralValue (baseOf text).1 (baseOf text).2 := by
  constructor
  · intro h
    cases h with
    | decimal nonempty first all =>
      rw [baseOf_decimal first]
      exact ⟨nonempty, all, rfl⟩
    | octal all =>
      rw [baseOf_octal all]
      exact ⟨List.cons_ne_nil _ _, List.forall_mem_cons.mpr ⟨Nat.zero_lt_succ 7, all⟩, (numeralValue_zero _).symm⟩
    | hexadecimal letter nonempty all =>
      rw [baseOf_hexadecimal letter nonempty all]
      exact ⟨nonempty, all, rfl⟩
  · rintro ⟨hne, hall, rfl⟩
    obtain ⟨x, digits, rfl, hx, hbase⟩ | ⟨digits, rfl, hbase⟩ | ⟨hfirst, hbase⟩ := baseOf_cases text
    · rw [hbase] at hne hall ⊢
      exact .hexadecimal hx hne hall
    · rw [hbase] at hall ⊢
      exact .octal fun c hc => hall c (List.mem_cons_of_mem '0' hc)
    · rw [hbase] at hne hall ⊢
      exact .decimal hne hfirst hall

theorem Denotes.unique {text : List Char} {n m : Nat} (hn : Denotes text n) (hm : Denotes text m) : n = m :=
  ((denotes_iff text n).mp hn).2.2.trans ((denotes_iff text m).mp hm).2.2.symm

/-! ## What is accepted -/

def afterSign (text : List Char) : List Char :=
  if text.head? = some '-' ∨ text.head? = some '+' then text.tail else text

/-- The digits reach the end of the text and there are some. -/
theorem reaches_end_iff (p : Char → Bool) (text : List Char) :
    ¬ (text.takeWhile p = [] ∨ (text.takeWhile p).length < text.length) ↔ text ≠ [] ∧ ∀ c ∈ text, p c = true := by
  have hprefix := List.takeWhile_prefix p (l := text)
  constructor
  · intro h
    have heq : text.takeWhile p = text := hprefix.eq_of_length_le (by omega)
    exact ⟨fun hnil => h (.inl (by rw [hnil]; rfl)), List.takeWhile_eq_self_iff.mp heq⟩
  · rintro ⟨hne, hall⟩
    rw [List.takeWhile_eq_self_iff.mpr hall]
    rintro (hnil | hlt)
    · exact hne hnil
    · omega

theorem stringToUint_iff_denotes (str : String) (v : BitVec 32) :
    stringToUint str = some v ↔ ∃ n, Denotes (afterSign (str.toList.dropWhile isSpaceChar)) n ∧
      v = strtoulResult ((str.toList.dropWhile isSpaceChar).head? = some '-') n := by
  simp only [denotes_iff]
  unfold stringToUint
  dsimp only [afterSign]
  generalize str.toList.dropWhile isSpaceChar = text
  generalize baseOf (if text.head? = some '-' ∨ text.head? = some '+' then text.tail else text) = b
  have hend := reaches_end_iff (fun c => decide (digitOf c < b.1)) b.2
  simp only [decide_eq_true_eq] at hend
  split
  case isTrue hnone =>
    refine ⟨fun h => (by cases h), ?_⟩
    rintro ⟨n, ⟨hne, hall, -⟩, -⟩
    exact absurd hnone (hend.mpr ⟨hne, hall⟩)
  case isFalse hsome =>
    obtain ⟨hne, hall⟩ := hend.mp hsome
    have hself : b.2.takeWhile (fun c => decide (digitOf c < b.1)) = b.2 :=
      List.takeWhile_eq_self_iff.mpr fun c hc => decide_eq_true (hall c hc)
    have hresult : (let v := (b.2.takeWhile fun c => decide (digitOf c < b.1)).foldl (fun v c => v * b.1 + digitOf c) 0
        if v < 2 ^ 32 then some (if text.head? = some '-' then -BitVec.ofNat 32 v else BitVec.ofNat 32 v)
        else some 0xFFFFFFFF) = some (strtoulResult (text.head? = some '-') (numeralValue b.1 b.2)) := by
      rw [hself]
      dsimp only [strtoulResult, numeralValue]
      split
      · rfl
      · rfl
    rw [hresult, Option.some.injEq]
    constructor
    · rintro rfl
      exact ⟨_, ⟨hne, hall, rfl⟩, rfl⟩
    · rintro ⟨n, ⟨-, -, rfl⟩, rfl⟩
      rfl

/-- Nothing but what was split off stands before the numeral. -/
theorem Splits.eq {text blanks sign body : List Char} {n : Nat} (h : Splits text blanks sign body)
    (hbody : Denotes body n) :
    text.dropWhile isSpaceChar = sign ++ body ∧ afterSign (sign ++ body) = body ∧
      ((sign ++ body).head? = some '-' ↔ sign = ['-']) := by
  obtain ⟨c, rest, rfl, hlow, hhigh⟩ := hbody.head
  have hspace : isSpaceChar c = false := by
    unfold isSpaceChar
    rw [decide_eq_false_iff_not]
    omega
  have hminus : c ≠ '-' := by
    rintro rfl
    exact absurd hlow (by decide)
  have hplus : c ≠ '+' := by
    rintro rfl
    exact absurd hlow (by decide)
  have hdrop : text.dropWhile isSpaceChar = (sign ++ c :: rest).dropWhile isSpaceChar := by
    rw [h.text, List.dropWhile_append_of_pos h.blanks]
  rw [hdrop]
  rcases h.sign with rfl | rfl | rfl
  · simp [hspace, afterSign, hminus, hplus]
  · simp [afterSign, show isSpaceChar '-' = false by decide]
  · simp [afterSign, show isSpaceChar '+' = false by decide]

theorem exists_splits (text : List Char) :
    ∃ blanks sign, Splits text blanks sign (afterSign (text.dropWhile isSpaceChar)) := by
  have htext : text = text.takeWhile isSpaceChar ++ text.dropWhile isSpaceChar := List.takeWhile_append_dropWhile.symm
  have hblanks : ∀ c ∈ text.takeWhile isSpaceChar, isSpaceChar c = true := fun c hc => List.mem_takeWhile_imp hc
  unfold afterSign
  split
  case isTrue hsign =>
    cases hrest : text.dropWhile isSpaceChar with
    | nil =>
      rw [hrest] at hsign
      simp at hsign
    | cons c rest =>
      rw [hrest] at htext hsign
      simp only [List.head?_cons, Option.some.injEq] at hsign
      refine ⟨text.takeWhile isSpaceChar, [c], htext, hblanks, ?_⟩
      rcases hsign with rfl | rfl
      · exact .inr (.inl rfl)
      · exact .inr (.inr rfl)
  case isFalse => exact ⟨text.takeWhile isSpaceChar, [], htext, hblanks, .inl rfl⟩

/-- A string is accepted when it is a numeral behind blanks and a sign. -/
theorem stringToUint_iff (str : String) (v : BitVec 32) :
    stringToUint str = some v ↔ ∃ blanks sign body n, Splits str.toList blanks sign body ∧ Denotes body n ∧
      v = strtoulResult (sign = ['-']) n := by
  rw [stringToUint_iff_denotes]
  constructor
  · rintro ⟨n, hn, rfl⟩
    obtain ⟨blanks, sign, hsplits⟩ := exists_splits str.toList
    generalize afterSign (str.toList.dropWhile isSpaceChar) = body at hsplits hn
    obtain ⟨hdrop, -, hminus⟩ := hsplits.eq hn
    refine ⟨blanks, sign, body, n, hsplits, hn, ?_⟩
    simp only [hdrop, hminus]
  · rintro ⟨blanks, sign, body, n, hsplits, hn, rfl⟩
    obtain ⟨hdrop, hafter, hminus⟩ := hsplits.eq hn
    refine ⟨n, by rw [hdrop, hafter]; exact hn, ?_⟩
    simp only [hdrop, hminus]

theorem strtoulResult_plain {n : Nat} (h : n < 2 ^ 32) :
    strtoulResult (([] : List Char) = ['-']) n = BitVec.ofNat 32 n := by
  rw [strtoulResult, if_pos h, if_neg (List.cons_ne_nil '-' []).symm]

/-! ## When it is exact -/

/-- A numeral with blanks or a sign before it, or one that is too large. -/
def Lenient (str : String) : Prop :=
  ∃ blanks sign body n, Splits str.toList blanks sign body ∧ Denotes body n ∧ (blanks ≠ [] ∨ sign ≠ [] ∨ 2 ^ 32 ≤ n)

/-- **Numbers.**  A string is read as it should be unless it is a numeral that is too
large or stands behind blanks or a sign. -/
theorem string_to_uint_exact_iff (str : String) : Exact str ↔ ¬ Lenient str := by
  constructor
  · rintro hexact ⟨blanks, sign, body, n, hsplits, hn, hbad⟩
    obtain ⟨m, hm, hlt, -⟩ := (hexact _).mp ((stringToUint_iff str _).mpr ⟨blanks, sign, body, n, hsplits, hn, rfl⟩)
    -- the string starts with a digit, so nothing was split off
    have hplain : Splits str.toList [] [] str.toList := ⟨rfl, fun c hc => (by cases hc), .inl rfl⟩
    obtain ⟨hdrop, hafter, hminus⟩ := hsplits.eq hn
    obtain ⟨hdrop', hafter', hminus'⟩ := hplain.eq hm
    have hbody : body = str.toList := by
      rw [← hafter, ← hdrop, hdrop', hafter']
    rw [hbody] at hn
    have hempty : blanks.length + sign.length = 0 := by
      have hlength := congrArg List.length hsplits.text
      rw [hbody, List.length_append, List.length_append] at hlength
      omega
    rcases hbad with hblanks | hsign | hlarge
    · exact hblanks (List.length_eq_zero_iff.mp (by omega))
    · exact hsign (List.length_eq_zero_iff.mp (by omega))
    · have := hn.unique hm
      omega
  · intro hstrict v
    rw [stringToUint_iff]
    constructor
    · rintro ⟨blanks, sign, body, n, hsplits, hn, rfl⟩
      have hgood : ¬ (blanks ≠ [] ∨ sign ≠ [] ∨ 2 ^ 32 ≤ n) :=
        fun hbad => hstrict ⟨blanks, sign, body, n, hsplits, hn, hbad⟩
      push Not at hgood
      obtain ⟨rfl, rfl, hlt⟩ := hgood
      have htext : str.toList = body := hsplits.text
      exact ⟨n, htext ▸ hn, hlt, strtoulResult_plain hlt⟩
    · rintro ⟨n, hn, hlt, rfl⟩
      exact ⟨[], [], str.toList, n, ⟨rfl, fun c hc => (by cases hc), .inl rfl⟩, hn, (strtoulResult_plain hlt).symm⟩

/-- 2^32 is taken for the number before it. -/
theorem string_to_uint_saturates : ¬ ∀ str, Exact str := by
  intro h
  obtain ⟨n, hn, hlt, -⟩ := (h "4294967296" 0xFFFFFFFF).mp (by decide)
  have hlarge : Denotes "4294967296".toList 4294967296 := .decimal (by decide) (by decide) (by simp [digitOf])
  have := hn.unique hlarge
  omega

end MochaHal.Audio.Parser
