import MochaHal.Lib.Assoc
import MochaHal.Lib.Decimal
import Mathlib.Data.List.Lex
import Mathlib.Data.List.TakeWhile
import Mathlib.Data.Char

/-! The parameters of a camera in `libmocha/camera/CameraParameters.cpp` and
`CameraParameters2.cpp`: a map from keys to values that travels as one text of the form
`key=value;key=value`.

The first class keeps its keys sorted, the second in the order in which they were set.
`classes_agree` follows a map that is set up in the second class, flattened, read by the first
and changed further; `compareSetOrder_calls` says what the order of the second class means after
any calls, and `parseSizesList_sizes` that lists of sizes are read as they were written. -/

namespace MochaHal.Camera.Parameters
open MochaHal.Assoc MochaHal.Decimal

/-! ## The text of a map -/

abbrev Text := List Char

/-- `strchr`: what stands before the first `c`, and what stands behind it. -/
def strchr (c : Char) (a : Text) : Option (Text × Text) :=
  if c ∈ a then some (a.takeWhile (· ≠ c), (a.dropWhile (· ≠ c)).tail) else none

theorem strchr_length {c : Char} {a k rest : Text} (h : strchr c a = some (k, rest)) :
    rest.length < a.length := by
  obtain ⟨hc, h⟩ := Option.ite_none_right_eq_some.mp h
  cases h
  have hle := (List.dropWhile_sublist (fun d => decide (d ≠ c)) (l := a)).length_le
  have hpos : 0 < a.length := List.length_pos_of_mem hc
  rw [List.length_tail]
  omega

/-- The loop of `unflatten`. -/
def pairs (a : Text) : List (Text × Text) :=
  match _ha : strchr '=' a with
  | none => []
  | some (k, b) =>
    match _hb : strchr ';' b with
    | none => [(k, b)]
    | some (v, rest) => (k, v) :: pairs rest
  termination_by a.length
  decreasing_by exact (strchr_length _hb).trans (strchr_length _ha)

/-- `flatten`; there is no `;` behind the last value. -/
def flattenPairs : List (Text × Text) → Text
  | [] => []
  | [p] => p.1 ++ '=' :: p.2
  | p :: q :: m => p.1 ++ '=' :: (p.2 ++ ';' :: flattenPairs (q :: m))

/-- What the text of a map can hold. -/
def Clean (m : List (Text × Text)) : Prop := ∀ p ∈ m, '=' ∉ p.1 ∧ ';' ∉ p.2

theorem strchr_append {c : Char} {k : Text} (h : c ∉ k) (rest : Text) :
    strchr c (k ++ c :: rest) = some (k, rest) := by
  have hk : ∀ d ∈ k, decide (d ≠ c) = true := fun d hd => by
    simpa using fun hdc : d = c => h (hdc ▸ hd)
  rw [strchr, if_pos (by simp), List.takeWhile_append_of_pos hk, List.dropWhile_append_of_pos hk]
  simp

theorem strchr_none {c : Char} {a : Text} (h : c ∉ a) : strchr c a = none := if_neg h

theorem strchr_some {c : Char} {a k rest : Text} (h : strchr c a = some (k, rest)) : c ∉ k := by
  obtain ⟨-, h⟩ := Option.ite_none_right_eq_some.mp h
  cases h
  intro hc
  simpa using List.mem_takeWhile_imp hc

section
variable {a k b v rest : Text}

theorem pairs_none (h : strchr '=' a = none) : pairs a = [] := by
  rw [pairs]
  split <;> simp_all

theorem pairs_last (ha : strchr '=' a = some (k, b)) (hb : strchr ';' b = none) :
    pairs a = [(k, b)] := by
  rw [pairs]
  split
  case h_1 hnone => simp [hnone] at ha
  case h_2 k' b' hsome =>
    obtain ⟨rfl, rfl⟩ : k' = k ∧ b' = b := by simpa [hsome] using ha
    split <;> simp_all

theorem pairs_more (ha : strchr '=' a = some (k, b)) (hb : strchr ';' b = some (v, rest)) :
    pairs a = (k, v) :: pairs rest := by
  rw [pairs]
  split
  case h_1 hnone => simp [hnone] at ha
  case h_2 k' b' hsome =>
    obtain ⟨rfl, rfl⟩ : k' = k ∧ b' = b := by simpa [hsome] using ha
    split <;> simp_all

end

theorem pairs_clean (a : Text) : Clean (pairs a) := by
  induction a using pairs.induct with
  | case1 a hnone =>
    rw [pairs_none hnone]
    exact fun p hp => by cases hp
  | case2 a k b ha hb =>
    rw [pairs_last ha hb]
    refine List.forall_mem_singleton.mpr ⟨strchr_some ha, fun hmem => ?_⟩
    simp [strchr, hmem] at hb
  | case3 a k b ha v rest hb ih =>
    rw [pairs_more ha hb]
    exact List.forall_mem_cons.mpr ⟨⟨strchr_some ha, strchr_some hb⟩, ih⟩

/-- **Round trip.** -/
theorem pairs_flattenPairs {m : List (Text × Text)} (h : Clean m) : pairs (flattenPairs m) = m := by
  induction m with
  | nil => exact pairs_none (strchr_none List.not_mem_nil)
  | cons p m ih =>
    obtain ⟨⟨hk, hv⟩, hm⟩ := List.forall_mem_cons.mp h
    cases m with
    | nil => exact pairs_last (strchr_append hk _) (strchr_none hv)
    | cons q m =>
      rw [flattenPairs, pairs_more (strchr_append hk _) (strchr_append hv _), ih hm]

/-! ## The two classes -/

/-- `CameraParameters`; a `KeyedVector` keeps its keys in order. -/
structure CameraParameters where
  mMap : List (Text × Text)
  clean : Clean mMap
  sorted : Sorted mMap

/-- `CameraParameters2`; a key that is set again moves to the end. -/
structure CameraParameters2 where
  mMap : List (Text × Text)
  clean : Clean mMap

/-- The tests of `set`. -/
def settable (key value : Text) : Bool :=
  !('=' ∈ key || ';' ∈ key) && !('=' ∈ value || ';' ∈ value)

theorem settable_clean {key value : Text} (h : settable key value = true) :
    '=' ∉ key ∧ ';' ∉ value := by
  simp only [settable, Bool.and_eq_true, Bool.not_eq_true', Bool.or_eq_false_iff,
    decide_eq_false_iff_not] at h
  exact ⟨h.1.1, h.2.2⟩

theorem Clean.remove {m : List (Text × Text)} (h : Clean m) (key : Text) : Clean (Assoc.remove key m) :=
  fun p hp => h p (List.eraseP_subset hp)

theorem Clean.insert {m : List (Text × Text)} (h : Clean m) {key value : Text}
    (hk : '=' ∉ key) (hv : ';' ∉ value) : Clean (Assoc.insert key value m) := by
  intro p hp
  rcases mem_insert hp with rfl | hp
  · exact ⟨hk, hv⟩
  · exact h p hp

/-- A call that changes a map. -/
inductive Call
  | set (key value : Text)
  | remove (key : Text)
  deriving DecidableEq, Repr

/-- What the call does, if it is not refused. -/
def Call.edits : Call → List (Edit Text Text)
  | set key value => if settable key value then [.set key value] else []
  | remove key => [.remove key]

def edits (cs : List Call) : List (Edit Text Text) := cs.flatMap Call.edits

namespace CameraParameters

def empty : CameraParameters := ⟨[], List.forall_mem_nil _, List.Pairwise.nil⟩

def flatten (p : CameraParameters) : Text := flattenPairs p.mMap

/-- `mMap.add` of the pairs in turn. -/
def addAll (m : List (Text × Text)) (acc : CameraParameters) (h : Clean m) : CameraParameters where
  mMap := m.foldl (fun m p => Assoc.insert p.1 p.2 m) acc.mMap
  clean := by
    have hacc := acc.clean
    generalize acc.mMap = l at hacc
    induction m generalizing l with
    | nil => exact hacc
    | cons p m ih =>
      obtain ⟨hp, hm⟩ := List.forall_mem_cons.mp h
      exact ih hm _ (hacc.insert hp.1 hp.2)
  sorted := by
    have hacc := acc.sorted
    clear h
    generalize acc.mMap = l at hacc
    induction m generalizing l with
    | nil => exact hacc
    | cons p m ih => exact ih _ (hacc.insert p.1 p.2)

def unflatten (params : Text) : CameraParameters := addAll (pairs params) empty (pairs_clean params)

def set (p : CameraParameters) (key value : Text) : CameraParameters :=
  if h : settable key value = true then
    ⟨Assoc.insert key value p.mMap,
      p.clean.insert (settable_clean h).1 (settable_clean h).2, p.sorted.insert key value⟩
  else p

def remove (p : CameraParameters) (key : Text) : CameraParameters :=
  ⟨Assoc.remove key p.mMap, p.clean.remove key, p.sorted.remove key⟩

/-- `valueFor` gives the empty string for a key that is not there. -/
def get (p : CameraParameters) (key : Text) : Option Text :=
  let v := (lookup key p.mMap).getD []
  if v.length = 0 then none else some v

def call (p : CameraParameters) : Call → CameraParameters
  | .set key value => p.set key value
  | .remove key => p.remove key

def calls (p : CameraParameters) (cs : List Call) : CameraParameters := cs.foldl call p

end CameraParameters

namespace CameraParameters2

def empty : CameraParameters2 := ⟨[], List.forall_mem_nil _⟩

def flatten (p : CameraParameters2) : Text := flattenPairs p.mMap

def unflatten (params : Text) : CameraParameters2 := ⟨pairs params, pairs_clean params⟩

def set (p : CameraParameters2) (key value : Text) : CameraParameters2 :=
  if h : settable key value = true then
    ⟨replace key value p.mMap, List.forall_mem_append.mpr
      ⟨p.clean.remove key, List.forall_mem_singleton.mpr (settable_clean h)⟩⟩
  else p

def remove (p : CameraParameters2) (key : Text) : CameraParameters2 :=
  ⟨Assoc.remove key p.mMap, p.clean.remove key⟩

def get (p : CameraParameters2) (key : Text) : Option Text := lookup key p.mMap

/-- `indexOfKey`. -/
def indexOfKey (p : CameraParameters2) (key : Text) : Option Nat := p.mMap.findIdx? (·.1 = key)

inductive Status
  | NAME_NOT_FOUND
  | BAD_VALUE
  deriving DecidableEq, Repr

/-- `none` for a null key; the result is the status, or what is written to `order`. -/
def compareSetOrder (p : CameraParameters2) (key1 key2 : Option Text) : Except Status Int :=
  match key1, key2 with
  | none, _ => .error .BAD_VALUE
  | some _, none => .error .BAD_VALUE
  | some key1, some key2 =>
    match p.indexOfKey key1, p.indexOfKey key2 with
    | none, _ => .error .NAME_NOT_FOUND
    | some _, none => .error .NAME_NOT_FOUND
    | some index1, some index2 =>
      .ok (if index1 = index2 then 0 else if index1 < index2 then -1 else 1)

def call (p : CameraParameters2) : Call → CameraParameters2
  | .set key value => p.set key value
  | .remove key => p.remove key

def calls (p : CameraParameters2) (cs : List Call) : CameraParameters2 := cs.foldl call p

end CameraParameters2

/-! ## Runs of calls -/

namespace CameraParameters2

/-- **Round trip.** -/
theorem unflatten_flatten (p : CameraParameters2) : unflatten p.flatten = p := by
  obtain ⟨m, hclean⟩ := p
  simp only [unflatten, flatten, pairs_flattenPairs hclean]

theorem call_mMap (p : CameraParameters2) (c : Call) : (p.call c).mMap = run c.edits p.mMap := by
  cases c with
  | remove key => rfl
  | set key value =>
    by_cases h : settable key value = true
    · simp [call, set, Call.edits, h, run, Edit.apply]
    · simp [call, set, Call.edits, h, run]

theorem calls_mMap (p : CameraParameters2) (cs : List Call) :
    (p.calls cs).mMap = run (edits cs) p.mMap := by
  induction cs generalizing p with
  | nil => rfl
  | cons c cs ih =>
    show ((p.call c).calls cs).mMap = _
    rw [ih, call_mMap]
    exact (List.foldl_append).symm

theorem nodup_calls (cs : List Call) : ((empty.calls cs).mMap.map Prod.fst).Nodup := by
  rw [calls_mMap]
  exact nodup_run (m := []) List.nodup_nil _

/-- **What the order means.**  After any calls, the order of two keys is that of their last
calls that were not refused. -/
theorem compareSetOrder_calls (cs : List Call) (key1 key2 : Text) :
    (empty.calls cs).compareSetOrder (some key1) (some key2) =
      if (empty.calls cs).get key1 = none ∨ (empty.calls cs).get key2 = none then
        .error .NAME_NOT_FOUND
      else .ok (if stamp key1 (edits cs) = stamp key2 (edits cs) then 0
        else if stamp key1 (edits cs) < stamp key2 (edits cs) then -1 else 1) := by
  have hmap : (empty.calls cs).mMap = survivors (edits cs) := by
    rw [calls_mMap]
    exact run_eq (m := []) List.nodup_nil _
  have hpairwise := survivors_pairwise (edits cs)
  rw [← hmap] at hpairwise
  simp only [compareSetOrder, get, ← findIdx_eq_none, indexOfKey]
  cases h₁ : (empty.calls cs).mMap.findIdx? (·.1 = key1) with
  | none => simp
  | some i =>
    cases h₂ : (empty.calls cs).mMap.findIdx? (·.1 = key2) with
    | none => simp
    | some j =>
      obtain ⟨heq, hlt⟩ := compare_findIdx (f := fun k => stamp k (edits cs)) hpairwise h₁ h₂
      simp [heq, hlt]

end CameraParameters2

namespace CameraParameters

theorem unflatten_mMap (p : CameraParameters2) :
    (unflatten p.flatten).mMap = (p.mMap.map fun q => Edit.set q.1 q.2).foldl Edit.sort [] := by
  have hpairs : pairs p.flatten = p.mMap := pairs_flattenPairs p.clean
  simp only [unflatten, addAll, hpairs, List.foldl_map]
  rfl

/-- **Round trip.** -/
theorem unflatten_flatten (p : CameraParameters) : unflatten p.flatten = p := by
  obtain ⟨m, hclean, hsorted⟩ := p
  have hmap : (unflatten (flattenPairs m)).mMap = m := by
    simp only [unflatten, addAll, pairs_flattenPairs hclean]
    exact insert_all [] hsorted
  simp only [flatten]
  generalize unflatten (flattenPairs m) = q at hmap
  cases q
  cases hmap
  rfl

theorem call_mMap (p : CameraParameters) (c : Call) :
    (p.call c).mMap = c.edits.foldl Edit.sort p.mMap := by
  cases c with
  | remove key => rfl
  | set key value =>
    by_cases h : settable key value = true
    · simp [call, set, Call.edits, h, Edit.sort]
    · simp [call, set, Call.edits, h]

theorem calls_mMap (p : CameraParameters) (cs : List Call) :
    (p.calls cs).mMap = (edits cs).foldl Edit.sort p.mMap := by
  induction cs generalizing p with
  | nil => rfl
  | cons c cs ih =>
    show ((p.call c).calls cs).mMap = _
    rw [ih, call_mMap]
    exact (List.foldl_append).symm

theorem get_eq (p : CameraParameters) (key : Text) :
    p.get key = (lookup key p.mMap).filter (· ≠ []) := by
  unfold get
  cases lookup key p.mMap with
  | none => rfl
  | some v => cases v <;> rfl

end CameraParameters

/-- **The classes agree.**  A map set up in the second class, sent as text, read by the first
class and changed there answers as the second class would have; an empty value counts as none. -/
theorem classes_agree (cs cs' : List Call) (key : Text) :
    ((CameraParameters.unflatten (CameraParameters2.empty.calls cs).flatten).calls cs').get key =
      ((CameraParameters2.empty.calls (cs ++ cs')).get key).filter (· ≠ []) := by
  have hnodup := CameraParameters2.nodup_calls cs
  rw [CameraParameters.get_eq, CameraParameters.calls_mMap,
    lookup_sort_run (CameraParameters.sorted _), CameraParameters.unflatten_mMap,
    lookup_sort_run List.Pairwise.nil, last_sets hnodup]
  have hcalls : CameraParameters2.empty.calls (cs ++ cs') =
      (CameraParameters2.empty.calls cs).calls cs' := List.foldl_append
  rw [hcalls, CameraParameters2.get, CameraParameters2.calls_mMap (CameraParameters2.empty.calls cs) cs',
    lookup_run hnodup]
  cases lookup key (CameraParameters2.empty.calls cs).mMap <;> rfl

/-! ## Pairs of numbers -/

/-- `strtol` where a `long` has 32 bits: the number, and what stands behind it. -/
def strtol (text : Text) : Int × Text :=
  match scanNumber text with
  | some (v, rest) => (max INT_MIN (min INT_MAX v), rest)
  | none => (0, text)

/-- `none` for -1; else both numbers and what stands behind them. -/
def parse_pair (str : Text) (delim : Char) : Option (Int × Int × Text) :=
  if (strtol str).2.head? = some delim then
    some ((strtol str).1, (strtol (strtol str).2.tail).1, (strtol (strtol str).2.tail).2)
  else none

theorem strtol_length (text : Text) : (strtol text).2.length ≤ text.length := by
  unfold strtol
  split
  case h_1 v rest h => exact (scanNumber_length h).le
  case h_2 => exact le_rfl

theorem parse_pair_length {str rest : Text} {delim : Char} {first second : Int}
    (h : parse_pair str delim = some (first, second, rest)) : rest.length < str.length := by
  obtain ⟨hdelim, h⟩ := Option.ite_none_right_eq_some.mp h
  cases h
  have h₁ := strtol_length str
  have h₂ := strtol_length (strtol str).2.tail
  have hpos : 0 < (strtol str).2.length := List.length_pos_iff.mpr fun hnil => by simp [hnil] at hdelim
  rw [List.length_tail] at h₂
  omega

/-- The sizes that are pushed before the end of the text, or before the first bad character. -/
def parseSizesList (sizesStr : Text) : List (Int × Int) :=
  match _h : parse_pair sizesStr 'x' with
  | none => []
  | some (width, height, rest) =>
    match rest with
    | [] => [(width, height)]
    | c :: rest' => if c = ',' then (width, height) :: parseSizesList rest' else []
  termination_by sizesStr.length
  decreasing_by
    have := parse_pair_length _h
    simp only [List.length_cons] at this
    omega

/-- `sprintf` with `%dx%d` or `%d,%d`. -/
def pairText (delim : Char) (pair : Int × Int) : Text :=
  intDecimal pair.1 ++ delim :: intDecimal pair.2

def Fits (v : Int) : Prop := INT_MIN ≤ v ∧ v ≤ INT_MAX

theorem strtol_intDecimal {v : Int} (hv : Fits v) {rest : Text} (h : Ends rest) :
    strtol (intDecimal v ++ rest) = (v, rest) := by
  rw [strtol, scanNumber_intDecimal h]
  simp only [min_eq_right hv.2, max_eq_right hv.1]

theorem parse_pair_pairText {pair : Int × Int} (h₁ : Fits pair.1) (h₂ : Fits pair.2) {delim : Char}
    (hdelim : delim.isDigit = false) (rest : Text) (h : Ends rest) :
    parse_pair (pairText delim pair ++ rest) delim = some (pair.1, pair.2, rest) := by
  have hends : Ends (delim :: (intDecimal pair.2 ++ rest)) := fun c hc => by
    obtain rfl : delim = c := by simpa using hc
    exact hdelim
  have htext : pairText delim pair ++ rest = intDecimal pair.1 ++ delim :: (intDecimal pair.2 ++ rest) := by
    simp [pairText]
  rw [parse_pair, htext, strtol_intDecimal h₁ hends]
  simp only [List.head?_cons, List.tail_cons, if_true, strtol_intDecimal h₂ h]

section
variable {str rest : Text} {width height : Int}

theorem parseSizesList_bad (h : parse_pair str 'x' = none) : parseSizesList str = [] := by
  rw [parseSizesList]
  split <;> simp_all

theorem parseSizesList_last (h : parse_pair str 'x' = some (width, height, [])) :
    parseSizesList str = [(width, height)] := by
  rw [parseSizesList]
  split
  case h_1 hnone => simp [hnone] at h
  case h_2 w l r hsome =>
    obtain ⟨rfl, rfl, rfl⟩ : w = width ∧ l = height ∧ r = [] := by simpa [hsome] using h
    rfl

theorem parseSizesList_more (h : parse_pair str 'x' = some (width, height, ',' :: rest)) :
    parseSizesList str = (width, height) :: parseSizesList rest := by
  rw [parseSizesList]
  split
  case h_1 hnone => simp [hnone] at h
  case h_2 w l r hsome =>
    obtain ⟨rfl, rfl, rfl⟩ : w = width ∧ l = height ∧ r = ',' :: rest := by simpa [hsome] using h
    exact if_pos rfl

end

/-- A list of sizes as a camera writes it. -/
def sizesText : List (Int × Int) → Text
  | [] => []
  | [p] => pairText 'x' p
  | p :: q :: sizes => pairText 'x' p ++ ',' :: sizesText (q :: sizes)

/-- **The sizes are read as they were written.** -/
theorem parseSizesList_sizes (sizes : List (Int × Int)) (h : ∀ p ∈ sizes, Fits p.1 ∧ Fits p.2) :
    parseSizesList (sizesText sizes) = sizes := by
  induction sizes with
  | nil => exact parseSizesList_bad rfl
  | cons p sizes ih =>
    obtain ⟨⟨h₁, h₂⟩, hs⟩ := List.forall_mem_cons.mp h
    cases sizes with
    | nil =>
      have hpair := parse_pair_pairText h₁ h₂ (show 'x'.isDigit = false from rfl) [] fun c hc => by cases hc
      exact parseSizesList_last (by simpa [sizesText] using hpair)
    | cons q sizes =>
      have hends : Ends (',' :: sizesText (q :: sizes)) := fun c hc => by
        obtain rfl : ',' = c := by simpa using hc
        rfl
      rw [sizesText, parseSizesList_more (parse_pair_pairText h₁ h₂ rfl _ hends), ih hs]

/-- Sizes of a sensor, and a negative one. -/
theorem parseSizesList_sizes_three : parseSizesList (sizesText [(2592, 1944), (1280, 720), (-1, 0)]) =
    [(2592, 1944), (1280, 720), (-1, 0)] :=
  parseSizesList_sizes _ (by unfold Fits INT_MIN INT_MAX; decide)

/-! ## Settings that are pairs -/

theorem char_of_mem_intDecimal {v : Int} {c : Char} (h : c ∈ intDecimal v) : c = '-' ∨ c.isDigit = true := by
  unfold intDecimal at h
  split at h
  · rcases List.mem_cons.mp h with h | h
    · exact .inl h
    · exact .inr (decimal_isDigit h)
  · exact .inr (decimal_isDigit h)

theorem settable_pairText {key : Text} {delim : Char} (hkey : '=' ∉ key ∧ ';' ∉ key)
    (hdelim : delim ≠ '=' ∧ delim ≠ ';') (pair : Int × Int) :
    settable key (pairText delim pair) = true := by
  have hout : ∀ c : Char, c ≠ '-' → c.isDigit = false → delim ≠ c → c ∉ pairText delim pair := by
    intro c hminus hdigit hne hc
    have hnumber : ∀ v, c ∉ intDecimal v := fun v hv => by
      rcases char_of_mem_intDecimal hv with h | h
      · exact hminus h
      · rw [hdigit] at h
        cases h
    rcases List.mem_append.mp hc with h | h
    · exact hnumber _ h
    · rcases List.mem_cons.mp h with h | h
      · exact hne h.symm
      · exact hnumber _ h
  have h₁ := hout '=' (by decide) (by decide) hdelim.1
  have h₂ := hout ';' (by decide) (by decide) hdelim.2
  simp [settable, hkey.1, hkey.2, h₁, h₂]

/-- The getters of pairs: -1 and -1 where there is none, or where it cannot be read. -/
def readPair (delim : Char) (p : Option Text) : Int × Int :=
  match p with
  | none => (-1, -1)
  | some p => ((parse_pair p delim).map fun r => (r.1, r.2.1)).getD (-1, -1)

theorem readPair_pairText {pair : Int × Int} (h₁ : Fits pair.1) (h₂ : Fits pair.2) {delim : Char}
    (hdelim : delim.isDigit = false) : readPair delim (some (pairText delim pair)) = pair := by
  have hpair := parse_pair_pairText h₁ h₂ hdelim [] fun c hc => by cases hc
  rw [List.append_nil] at hpair
  simp [readPair, hpair]

def KEY_PREVIEW_SIZE : Text := "preview-size".toList
def KEY_VIDEO_SIZE : Text := "video-size".toList
def KEY_PICTURE_SIZE : Text := "picture-size".toList
def KEY_PREVIEW_FPS_RANGE : Text := "preview-fps-range".toList

namespace CameraParameters2

def setPair (p : CameraParameters2) (key : Text) (delim : Char) (pair : Int × Int) : CameraParameters2 :=
  p.set key (pairText delim pair)

def getPair (p : CameraParameters2) (key : Text) (delim : Char) : Int × Int :=
  readPair delim (p.get key)

def setPreviewSize (p : CameraParameters2) (width height : Int) : CameraParameters2 :=
  p.setPair KEY_PREVIEW_SIZE 'x' (width, height)

def setVideoSize (p : CameraParameters2) (width height : Int) : CameraParameters2 :=
  p.setPair KEY_VIDEO_SIZE 'x' (width, height)

def setPictureSize (p : CameraParameters2) (width height : Int) : CameraParameters2 :=
  p.setPair KEY_PICTURE_SIZE 'x' (width, height)

def setPreviewFpsRange (p : CameraParameters2) (min_fps max_fps : Int) : CameraParameters2 :=
  p.setPair KEY_PREVIEW_FPS_RANGE ',' (min_fps, max_fps)

def getPreviewSize (p : CameraParameters2) : Int × Int := p.getPair KEY_PREVIEW_SIZE 'x'
def getVideoSize (p : CameraParameters2) : Int × Int := p.getPair KEY_VIDEO_SIZE 'x'
def getPictureSize (p : CameraParameters2) : Int × Int := p.getPair KEY_PICTURE_SIZE 'x'
def getPreviewFpsRange (p : CameraParameters2) : Int × Int := p.getPair KEY_PREVIEW_FPS_RANGE ','

/-- **A pair is kept** through any calls on other keys. -/
theorem getPair_calls (cs cs' : List Call) {key : Text} (hkey : '=' ∉ key ∧ ';' ∉ key) {delim : Char}
    (hdelim : delim ≠ '=' ∧ delim ≠ ';' ∧ delim.isDigit = false) {pair : Int × Int}
    (h₁ : Fits pair.1) (h₂ : Fits pair.2) (hlater : last key (edits cs') = none) :
    (((empty.calls cs).setPair key delim pair).calls cs').getPair key delim = pair := by
  have hset : settable key (pairText delim pair) = true :=
    settable_pairText hkey ⟨hdelim.1, hdelim.2.1⟩ pair
  have hmap : ((empty.calls cs).setPair key delim pair).mMap =
      (Edit.set key (pairText delim pair)).apply (empty.calls cs).mMap := by
    rw [setPair, set, dif_pos hset]
    rfl
  have hnodup := nodup_apply (nodup_calls cs) (.set key (pairText delim pair))
  have hget : (((empty.calls cs).setPair key delim pair).calls cs').get key =
      some (pairText delim pair) := by
    rw [get, calls_mMap, hmap, lookup_run hnodup, hlater, lookup_apply (nodup_calls cs)]
    exact if_pos rfl
  rw [getPair, hget, readPair_pairText h₁ h₂ hdelim.2.2]

/-- The frame rates, and a size set after them. -/
theorem getPair_calls_fps : ((((empty.calls []).setPreviewFpsRange 15000 30000).calls
    [.set KEY_PICTURE_SIZE (pairText 'x' (2592, 1944))]).getPreviewFpsRange) = (15000, 30000) :=
  getPair_calls [] _ (by decide) (by decide) (by unfold Fits INT_MIN INT_MAX; decide)
    (by unfold Fits INT_MIN INT_MAX; decide) (by decide)

end CameraParameters2

end MochaHal.Camera.Parameters
