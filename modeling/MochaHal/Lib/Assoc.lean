import Mathlib.Tactic.Common
import Mathlib.Order.Bounds.Basic
import Mathlib.Data.List.Induction
import Mathlib.Data.List.Nodup
import Mathlib.Data.List.Perm.Subperm
import Mathlib.Algebra.Order.Field.Rat

/-! Lists of keys and values under a run of edits.  `replace` takes a key out and puts it at
the end, `insert` keeps the keys in order.  `run_eq` says what a run of edits leaves of a list:
what no edit has touched, and then the last value of each key in the order of those edits.
`insert_run` says that a sorted list holds the same, and `stamp` when a key was edited last. -/

namespace MochaHal.Assoc

variable {κ ν : Type}

/-! ## Operations -/

section
variable [DecidableEq κ]

def lookup (k : κ) (m : List (κ × ν)) : Option ν := (m.find? (·.1 = k)).map Prod.snd

/-- The first entry of the key is taken out. -/
def remove (k : κ) (m : List (κ × ν)) : List (κ × ν) := m.eraseP (·.1 = k)

def replace (k : κ) (v : ν) (m : List (κ × ν)) : List (κ × ν) := remove k m ++ [(k, v)]

inductive Edit (κ ν : Type)
  | set (k : κ) (v : ν)
  | remove (k : κ)
  deriving DecidableEq, Repr

def Edit.key : Edit κ ν → κ
  | set k _ => k
  | remove k => k

/-- The value that the edit leaves. -/
def Edit.value : Edit κ ν → Option ν
  | set _ v => some v
  | remove _ => none

def Edit.apply (m : List (κ × ν)) : Edit κ ν → List (κ × ν)
  | set k v => Assoc.replace k v m
  | remove k => Assoc.remove k m

def run (es : List (Edit κ ν)) (m : List (κ × ν)) : List (κ × ν) := es.foldl Edit.apply m

/-- The last edit of the key, as a value or its absence. -/
def last (k : κ) : List (Edit κ ν) → Option (Option ν)
  | [] => none
  | e :: es => (last k es).or (if e.key = k then some e.value else none)

/-- How many edits there are up to the last one of the key; zero if there is none. -/
def stamp (k : κ) : List (Edit κ ν) → Nat
  | [] => 0
  | e :: es => if stamp k es ≠ 0 then stamp k es + 1 else if e.key = k then 1 else 0

/-- The sets that no later edit overrides. -/
def survivors : List (Edit κ ν) → List (κ × ν)
  | [] => []
  | e :: es =>
    match e with
    | .set k v => if last k es = none then (k, v) :: survivors es else survivors es
    | .remove _ => survivors es

/-! ## A run of edits -/

theorem remove_eq_filter {m : List (κ × ν)} (h : (m.map Prod.fst).Nodup) (k : κ) :
    remove k m = m.filter (·.1 ≠ k) := by
  induction m with
  | nil => rfl
  | cons p m ih =>
    rw [List.map_cons, List.nodup_cons] at h
    by_cases hp : p.1 = k
    · -- nothing else has the key
      have hall : ∀ q ∈ m, q.1 ≠ k := fun q hq hqk => h.1 (hp ▸ hqk ▸ List.mem_map_of_mem hq)
      simpa [remove, hp] using (List.filter_eq_self.mpr (by simpa using hall)).symm
    · have := ih h.2
      simp_all [remove]

theorem nodup_remove {m : List (κ × ν)} (h : (m.map Prod.fst).Nodup) (k : κ) :
    ((remove k m).map Prod.fst).Nodup :=
  h.sublist ((List.eraseP_sublist).map Prod.fst)

theorem nodup_apply {m : List (κ × ν)} (h : (m.map Prod.fst).Nodup) (e : Edit κ ν) :
    ((e.apply m).map Prod.fst).Nodup := by
  cases e with
  | remove k => exact nodup_remove h k
  | set k v =>
    have hout : k ∉ (remove k m).map Prod.fst := by
      rw [remove_eq_filter h]
      simp
    have hremove := nodup_remove h k
    simp only [Edit.apply, replace, List.map_append]
    refine List.nodup_append.mpr ⟨hremove, List.nodup_singleton _, fun a ha b hb hab => hout ?_⟩
    obtain rfl : b = k := List.mem_singleton.mp hb
    exact hab ▸ ha

theorem nodup_run {m : List (κ × ν)} (h : (m.map Prod.fst).Nodup) (es : List (Edit κ ν)) :
    ((run es m).map Prod.fst).Nodup := by
  induction es generalizing m with
  | nil => exact h
  | cons e es ih => exact ih (nodup_apply h e)

/-- **What a run leaves.** -/
theorem run_eq {m : List (κ × ν)} (h : (m.map Prod.fst).Nodup) (es : List (Edit κ ν)) :
    run es m = m.filter (fun p => last p.1 es = none) ++ survivors es := by
  induction es generalizing m with
  | nil =>
    have hall : m.filter (fun p => last p.1 ([] : List (Edit κ ν)) = none) = m :=
      List.filter_eq_self.mpr (by simp [last])
    rw [hall, survivors, List.append_nil]
    rfl
  | cons e es ih =>
    have hrun : run (e :: es) m = run es (e.apply m) := rfl
    rw [hrun, ih (nodup_apply h e)]
    have hkept : (remove e.key m).filter (fun p => last p.1 es = none) =
        m.filter (fun p => last p.1 (e :: es) = none) := by
      rw [remove_eq_filter h, List.filter_filter]
      refine List.filter_congr fun p _ => ?_
      by_cases hp : p.1 = e.key
      · simp [last, hp]
      · simp [last, hp, Ne.symm hp]
    cases e with
    | remove k =>
      simp only [Edit.apply, survivors]
      exact congrArg (· ++ _) hkept
    | set k v =>
      simp only [Edit.apply, replace, survivors, List.filter_append]
      rw [show (remove k m).filter (fun p => last p.1 es = none) = _ from hkept, List.append_assoc]
      congr 1
      by_cases hk : last k es = none
      · simp [hk]
      · simp [hk]

/-! ## What is found -/

@[simp] theorem lookup_nil (k : κ) : lookup k ([] : List (κ × ν)) = none := rfl

theorem lookup_cons (k : κ) (p : κ × ν) (m : List (κ × ν)) :
    lookup k (p :: m) = if p.1 = k then some p.2 else lookup k m := by
  unfold lookup
  rw [List.find?_cons]
  by_cases hp : p.1 = k
  · simp [hp]
  · simp [hp]

theorem lookup_append (k : κ) (m m' : List (κ × ν)) :
    lookup k (m ++ m') = (lookup k m).or (lookup k m') := by
  induction m with
  | nil => rfl
  | cons p m ih =>
    rw [List.cons_append, lookup_cons, lookup_cons, ih]
    split <;> rfl

theorem lookup_map_mem {k : κ} {ks : List κ} (h : k ∈ ks) (g : κ → ν) :
    lookup k (ks.map fun k => (k, g k)) = some (g k) := by
  induction ks with
  | nil => cases h
  | cons k' ks ih =>
    rw [List.map_cons, lookup_cons]
    by_cases hk : k' = k
    · rw [if_pos hk, hk]
    · rw [if_neg hk]
      exact ih ((List.mem_cons.mp h).resolve_left (Ne.symm hk))

theorem lookup_eq_none {k : κ} {m : List (κ × ν)} : lookup k m = none ↔ k ∉ m.map Prod.fst := by
  induction m with
  | nil => simp [lookup]
  | cons p m ih =>
    rw [lookup_cons, List.map_cons, List.mem_cons, not_or, ← ih]
    by_cases hp : p.1 = k
    · simp [hp]
    · simp [hp, Ne.symm hp]

theorem lookup_remove_of_ne {k k' : κ} (hne : k' ≠ k) (m : List (κ × ν)) :
    lookup k' (remove k m) = lookup k' m := by
  induction m with
  | nil => rfl
  | cons p m ih =>
    unfold remove at ih ⊢
    rw [List.eraseP_cons, lookup_cons]
    by_cases hp : p.1 = k
    · simp [hp, Ne.symm hne]
    · simp [hp, lookup_cons, ih]

theorem lookup_remove {m : List (κ × ν)} (h : (m.map Prod.fst).Nodup) (k : κ) :
    lookup k (remove k m) = none := by
  rw [lookup_eq_none, remove_eq_filter h]
  simp

theorem lookup_apply {m : List (κ × ν)} (h : (m.map Prod.fst).Nodup) (k : κ) (e : Edit κ ν) :
    lookup k (e.apply m) = if e.key = k then e.value else lookup k m := by
  cases e with
  | set k' v =>
    simp only [Edit.apply, Edit.key, Edit.value, replace, lookup_append, lookup_cons]
    by_cases hk : k' = k
    · subst hk
      simp [lookup_remove h]
    · simp [hk, lookup_remove_of_ne (Ne.symm hk)]
  | remove k' =>
    simp only [Edit.apply, Edit.key, Edit.value]
    by_cases hk : k' = k
    · subst hk
      simp [lookup_remove h]
    · simp [hk, lookup_remove_of_ne (Ne.symm hk)]

/-- **The last edit counts.** -/
theorem lookup_run {m : List (κ × ν)} (h : (m.map Prod.fst).Nodup) (k : κ) (es : List (Edit κ ν)) :
    lookup k (run es m) = (last k es).getD (lookup k m) := by
  induction es generalizing m with
  | nil => rfl
  | cons e es ih =>
    show lookup k (run es (e.apply m)) = _
    rw [ih (nodup_apply h e), lookup_apply h, last]
    cases last k es <;> by_cases hk : e.key = k <;> simp [hk]

/-- Distinct keys that are set once each. -/
theorem last_sets {m : List (κ × ν)} (h : (m.map Prod.fst).Nodup) (k : κ) :
    last k (m.map fun p => Edit.set p.1 p.2) = (lookup k m).map some := by
  induction m with
  | nil => rfl
  | cons p m ih =>
    rw [List.map_cons, List.nodup_cons] at h
    rw [List.map_cons, last, ih h.2, lookup_cons]
    by_cases hp : p.1 = k
    · have hnone : lookup k m = none := lookup_eq_none.mpr (hp ▸ h.1)
      simp [Edit.key, Edit.value, hp, hnone]
    · simp [Edit.key, hp]

theorem findIdx_eq_none {k : κ} {m : List (κ × ν)} :
    m.findIdx? (·.1 = k) = none ↔ lookup k m = none := by
  rw [List.findIdx?_eq_none_iff, lookup_eq_none, List.mem_map]
  simp only [decide_eq_false_iff_not, not_exists, not_and]

/-! ## The order of the edits -/

theorem stamp_eq_zero {k : κ} {es : List (Edit κ ν)} : stamp k es = 0 ↔ last k es = none := by
  induction es with
  | nil => simp [stamp, last]
  | cons e es ih =>
    by_cases hes : last k es = none
    · have := ih.mpr hes
      by_cases hk : e.key = k <;> simp [stamp, last, hes, this, hk]
    · have : stamp k es ≠ 0 := fun h => hes (ih.mp h)
      obtain ⟨r, hr⟩ := Option.ne_none_iff_exists'.mp hes
      simp [stamp, last, hr, this]

theorem survivors_touched {es : List (Edit κ ν)} {p : κ × ν} (hp : p ∈ survivors es) :
    last p.1 es ≠ none := by
  induction es with
  | nil => cases hp
  | cons e es ih =>
    have htail : p ∈ survivors es → last p.1 (e :: es) ≠ none := fun hp hnone =>
      ih hp (Option.or_eq_none_iff.mp hnone).1
    cases e with
    | remove k => exact htail hp
    | set k v =>
      unfold survivors at hp
      simp only at hp
      split at hp
      case isTrue hk =>
        rcases List.mem_cons.mp hp with rfl | hp
        · simp [last, Edit.key]
        · exact htail hp
      case isFalse => exact htail hp

/-- What survives stands in the order of the last edits. -/
theorem survivors_pairwise (es : List (Edit κ ν)) :
    (survivors es).Pairwise fun p q => stamp p.1 es < stamp q.1 es := by
  induction es with
  | nil => exact .nil
  | cons e es ih =>
    have hlater : ∀ p ∈ survivors es, stamp p.1 (e :: es) = stamp p.1 es + 1 ∧ 0 < stamp p.1 es := by
      intro p hp
      have hne : stamp p.1 es ≠ 0 := fun h => survivors_touched hp (stamp_eq_zero.mp h)
      exact ⟨if_pos hne, Nat.pos_of_ne_zero hne⟩
    have htail : (survivors es).Pairwise fun p q => stamp p.1 (e :: es) < stamp q.1 (e :: es) := by
      refine ih.imp_of_mem fun {p q} hp hq hpq => ?_
      rw [(hlater p hp).1, (hlater q hq).1]
      omega
    cases e with
    | remove k => exact htail
    | set k v =>
      unfold survivors
      simp only
      split
      case isTrue hk =>
        refine List.pairwise_cons.mpr ⟨fun q hq => ?_, htail⟩
        have hfirst : stamp k (Edit.set k v :: es) = 1 := by
          simp [stamp, stamp_eq_zero.mpr hk, Edit.key]
        rw [hfirst, (hlater q hq).1]
        exact Nat.succ_lt_succ (hlater q hq).2
      case isFalse => exact htail

/-- Indices in a list that grows compare as what grows. -/
theorem findIdx_lt {f : κ → Nat} {m : List (κ × ν)} (h : m.Pairwise fun p q => f p.1 < f q.1)
    {k k' : κ} {i j : Nat} (hi : m.findIdx? (·.1 = k) = some i) (hj : m.findIdx? (·.1 = k') = some j)
    (hij : i < j) : f k < f k' := by
  obtain ⟨hi, hk, -⟩ := List.findIdx?_eq_some_iff_getElem.mp hi
  obtain ⟨hj, hk', -⟩ := List.findIdx?_eq_some_iff_getElem.mp hj
  have hlt := List.pairwise_iff_getElem.mp h i j hi hj hij
  rwa [of_decide_eq_true hk, of_decide_eq_true hk'] at hlt

/-- The comparison of two indices. -/
theorem compare_findIdx {f : κ → Nat} {m : List (κ × ν)} (h : m.Pairwise fun p q => f p.1 < f q.1)
    {k k' : κ} {i j : Nat} (hi : m.findIdx? (·.1 = k) = some i) (hj : m.findIdx? (·.1 = k') = some j) :
    (i = j ↔ f k = f k') ∧ (i < j ↔ f k < f k') := by
  rcases lt_trichotomy i j with hij | hij | hij
  · have := findIdx_lt h hi hj hij
    omega
  · subst hij
    obtain ⟨hlt, hk, -⟩ := List.findIdx?_eq_some_iff_getElem.mp hi
    obtain ⟨_, hk', -⟩ := List.findIdx?_eq_some_iff_getElem.mp hj
    have hkk : k = k' := (of_decide_eq_true hk).symm.trans (of_decide_eq_true hk')
    exact ⟨by simp [hkk], by simp [hkk]⟩
  · have := findIdx_lt h hj hi hij
    omega

end

/-! ## Sorted lists -/

section
variable [LinearOrder κ] [DecidableEq κ]

def insert (k : κ) (v : ν) : List (κ × ν) → List (κ × ν)
  | [] => [(k, v)]
  | p :: m => if k < p.1 then (k, v) :: p :: m else if k = p.1 then (k, v) :: m else p :: insert k v m

def Sorted (m : List (κ × ν)) : Prop := m.Pairwise fun p q => p.1 < q.1

omit [DecidableEq κ] in
theorem Sorted.nodup {m : List (κ × ν)} (h : Sorted m) : (m.map Prod.fst).Nodup :=
  List.pairwise_map.mpr (h.imp fun hpq => hpq.ne)

theorem mem_insert {k : κ} {v : ν} {m : List (κ × ν)} {q : κ × ν} (hq : q ∈ insert k v m) :
    q = (k, v) ∨ q ∈ m := by
  induction m with
  | nil => exact .inl (List.mem_singleton.mp hq)
  | cons p m ih =>
    unfold insert at hq
    split at hq
    case isTrue => simpa using hq
    case isFalse =>
      split at hq
      case isTrue =>
        rcases List.mem_cons.mp hq with rfl | hq
        · exact .inl rfl
        · exact .inr (List.mem_cons_of_mem _ hq)
      case isFalse =>
        rcases List.mem_cons.mp hq with rfl | hq
        · exact .inr List.mem_cons_self
        · exact (ih hq).imp_right (List.mem_cons_of_mem _)

theorem Sorted.insert {m : List (κ × ν)} (h : Sorted m) (k : κ) (v : ν) :
    Sorted (Assoc.insert k v m) := by
  induction m with
  | nil => exact List.pairwise_singleton _ _
  | cons p m ih =>
    obtain ⟨hp, hm⟩ := List.pairwise_cons.mp h
    unfold Assoc.insert
    split
    case isTrue hlt =>
      refine List.pairwise_cons.mpr ⟨fun q hq => ?_, h⟩
      rcases List.mem_cons.mp hq with rfl | hq
      · exact hlt
      · exact hlt.trans (hp q hq)
    case isFalse hge =>
      split
      case isTrue heq => exact List.pairwise_cons.mpr ⟨fun q hq => heq ▸ hp q hq, hm⟩
      case isFalse hne =>
        refine List.pairwise_cons.mpr ⟨fun q hq => ?_, ih hm⟩
        rcases mem_insert hq with rfl | hq
        · exact lt_of_le_of_ne (not_lt.mp hge) (Ne.symm hne)
        · exact hp q hq

theorem Sorted.remove {m : List (κ × ν)} (h : Sorted m) (k : κ) : Sorted (Assoc.remove k m) :=
  List.Pairwise.sublist List.eraseP_sublist h

/-- A key behind all others is appended. -/
theorem insert_last {k : κ} {v : ν} {m : List (κ × ν)} (h : ∀ p ∈ m, p.1 < k) :
    insert k v m = m ++ [(k, v)] := by
  induction m with
  | nil => rfl
  | cons p m ih =>
    have hp := h p List.mem_cons_self
    unfold insert
    rw [if_neg hp.not_gt, if_neg hp.ne', ih fun q hq => h q (List.mem_cons_of_mem _ hq)]
    rfl

/-- A sorted list is what inserting its entries gives. -/
theorem insert_all (acc : List (κ × ν)) {m : List (κ × ν)} (h : Sorted (acc ++ m)) :
    m.foldl (fun m p => insert p.1 p.2 m) acc = acc ++ m := by
  induction m generalizing acc with
  | nil => exact (List.append_nil acc).symm
  | cons p m ih =>
    have hlast : ∀ q ∈ acc, q.1 < p.1 := fun q hq =>
      (List.pairwise_append.mp h).2.2 q hq p List.mem_cons_self
    rw [List.foldl_cons, insert_last hlast, ih _ (by simpa using h), List.append_assoc]
    rfl

theorem lookup_insert (k k' : κ) (v : ν) (m : List (κ × ν)) :
    lookup k' (insert k v m) = if k = k' then some v else lookup k' m := by
  induction m with
  | nil => simp [insert, lookup_cons]
  | cons p m ih =>
    unfold insert
    split
    case isTrue => rw [lookup_cons]
    case isFalse =>
      split
      case isTrue heq =>
        rw [lookup_cons, lookup_cons, ← heq]
        split <;> rfl
      case isFalse hne =>
        rw [lookup_cons, lookup_cons, ih]
        by_cases hp : p.1 = k'
        · simp [hp, show k ≠ k' from fun hk => hne (hk.trans hp.symm)]
        · simp [hp]

omit [DecidableEq κ] in
/-- In a list that grows, the last element with a property is the greatest. -/
theorem find_reverse_iff {ks : List κ} (h : ks.Pairwise (· < ·)) {P : κ → Bool} {k : κ} :
    ks.reverse.find? P = some k ↔ IsGreatest {k | k ∈ ks ∧ P k = true} k := by
  induction ks using List.reverseRecOn with
  | nil => simp [IsGreatest]
  | append_singleton ks a ih =>
    obtain ⟨hks, -, hlast⟩ := List.pairwise_append.mp h
    have hbelow : ∀ b ∈ ks, b < a := fun b hb => hlast b hb a (List.mem_singleton.mpr rfl)
    rw [List.reverse_append, List.reverse_singleton, List.singleton_append, List.find?_cons]
    split
    case h_1 ha =>
      rw [Option.some.injEq]
      have hgreatest : IsGreatest {k | k ∈ ks ++ [a] ∧ P k = true} a := by
        refine ⟨⟨by simp, ha⟩, fun b hb => ?_⟩
        rcases List.mem_append.mp hb.1 with hmem | hmem
        · exact (hbelow b hmem).le
        · exact (List.mem_singleton.mp hmem).le
      exact ⟨fun hak => hak ▸ hgreatest, fun hk => hgreatest.unique hk⟩
    case h_2 ha =>
      have hset : {k | k ∈ ks ++ [a] ∧ P k = true} = {k | k ∈ ks ∧ P k = true} := by
        ext b
        simp only [List.mem_append, List.mem_singleton, Set.mem_ofPred_eq]
        refine ⟨fun hb => ⟨hb.1.resolve_right ?_, hb.2⟩, fun hb => ⟨.inl hb.1, hb.2⟩⟩
        rintro rfl
        simp [ha] at hb
      rw [hset]
      exact ih hks

/-! The sorted list that a list of entries gives, the last entry of a key for the others. -/

def ofList (ps : List (κ × ν)) : List (κ × ν) := ps.foldl (fun m p => insert p.1 p.2 m) []

theorem ofList_concat (ps : List (κ × ν)) (p : κ × ν) :
    ofList (ps ++ [p]) = insert p.1 p.2 (ofList ps) := by
  unfold ofList
  rw [List.foldl_append]
  rfl

theorem ofList_eq {m : List (κ × ν)} (h : Sorted m) : ofList m = m := insert_all [] h

theorem mem_of_mem_ofList {ps : List (κ × ν)} {q : κ × ν} (hq : q ∈ ofList ps) : q ∈ ps := by
  induction ps using List.reverseRecOn with
  | nil => exact hq
  | append_singleton ps p ih =>
    rw [ofList_concat] at hq
    rw [List.mem_append, List.mem_singleton]
    exact (mem_insert hq).symm.imp_left ih

theorem sorted_ofList (ps : List (κ × ν)) : Sorted (ofList ps) := by
  induction ps using List.reverseRecOn with
  | nil => exact .nil
  | append_singleton ps p ih =>
    rw [ofList_concat]
    exact ih.insert p.1 p.2

theorem lookup_ofList (k : κ) (ps : List (κ × ν)) : lookup k (ofList ps) = lookup k ps.reverse := by
  induction ps using List.reverseRecOn with
  | nil => rfl
  | append_singleton ps p ih =>
    rw [ofList_concat, lookup_insert, ih, List.reverse_append, List.reverse_singleton,
      List.singleton_append, lookup_cons]

theorem mem_keys_ofList {k : κ} {ps : List (κ × ν)} :
    k ∈ (ofList ps).map Prod.fst ↔ k ∈ ps.map Prod.fst := by
  rw [← not_iff_not, ← lookup_eq_none, lookup_ofList, lookup_eq_none, List.map_reverse,
    List.mem_reverse]

omit [LinearOrder κ] in
theorem lookup_eq_some {m : List (κ × ν)} (h : (m.map Prod.fst).Nodup) {k : κ} {v : ν} :
    lookup k m = some v ↔ (k, v) ∈ m := by
  induction m with
  | nil => simp
  | cons p m ih =>
    rw [List.map_cons, List.nodup_cons] at h
    rw [lookup_cons, List.mem_cons]
    by_cases hp : p.1 = k
    · have hout : (k, v) ∉ m := fun hmem => h.1 (hp ▸ List.mem_map_of_mem hmem)
      rw [if_pos hp, or_iff_left hout, Option.some.injEq, ← hp]
      exact ⟨fun hv => by rw [← hv], fun hv => by rw [← hv]⟩
    · rw [if_neg hp, ih h.2, or_iff_right fun heq => hp (by rw [← heq])]

/-- A sorted list is known by what is found in it. -/
theorem Sorted.ext {m m' : List (κ × ν)} (h : Sorted m) (h' : Sorted m')
    (heq : ∀ k, lookup k m = lookup k m') : m = m' := by
  have hperm : m.Perm m' := by
    refine (List.perm_ext_iff_of_nodup h.nodup.of_map h'.nodup.of_map).mpr fun p => ?_
    rw [← lookup_eq_some h.nodup, ← lookup_eq_some h'.nodup, heq]
  exact hperm.eq_of_pairwise (fun p q _ _ hpq hqp => absurd hqp hpq.not_gt) h h'

theorem length_ofList {ps : List (κ × ν)} (h : (ps.map Prod.fst).Nodup) :
    (ofList ps).length = ps.length := by
  have hkeys : ((ofList ps).map Prod.fst).Perm (ps.map Prod.fst) :=
    (List.perm_ext_iff_of_nodup (sorted_ofList ps).nodup h).mpr fun _ => mem_keys_ofList
  simpa using hkeys.length_eq

theorem length_ofList_le (ps : List (κ × ν)) : (ofList ps).length ≤ ps.length := by
  have hsub : (ofList ps).map Prod.fst ⊆ ps.map Prod.fst := fun _ hk => mem_keys_ofList.mp hk
  simpa using (List.subperm_of_subset (sorted_ofList ps).nodup hsub).length_le

theorem lookup_ofList_map {k : κ} {ks : List κ} (h : k ∈ ks) (g : κ → ν) :
    lookup k (ofList (ks.map fun k => (k, g k))) = some (g k) := by
  rw [lookup_ofList, ← List.map_reverse]
  exact lookup_map_mem (List.mem_reverse.mpr h) g

/-- The values of a list, each replaced. -/
def mapValues {ν' : Type} (f : ν → ν') (m : List (κ × ν)) : List (κ × ν') :=
  m.map fun p => (p.1, f p.2)

theorem insert_mapValues {ν' : Type} (f : ν → ν') (k : κ) (v : ν) (m : List (κ × ν)) :
    insert k (f v) (mapValues f m) = mapValues f (insert k v m) := by
  induction m with
  | nil => rfl
  | cons p m ih =>
    unfold mapValues at ih ⊢
    rw [List.map_cons, insert, insert, ih]
    split
    · rfl
    · split <;> rfl

theorem ofList_mapValues {ν' : Type} (f : ν → ν') (ps : List (κ × ν)) :
    ofList (mapValues f ps) = mapValues f (ofList ps) := by
  induction ps using List.reverseRecOn with
  | nil => rfl
  | append_singleton ps p ih =>
    rw [ofList_concat, ← insert_mapValues, ← ih]
    have hconcat : mapValues f (ps ++ [p]) = mapValues f ps ++ [(p.1, f p.2)] := by simp [mapValues]
    rw [hconcat, ofList_concat]

omit [LinearOrder κ] in
theorem lookup_mapValues {ν' : Type} (f : ν → ν') (k : κ) (m : List (κ × ν)) :
    lookup k (mapValues f m) = (lookup k m).map f := by
  induction m with
  | nil => rfl
  | cons p m ih =>
    unfold mapValues at ih ⊢
    rw [List.map_cons, lookup_cons, lookup_cons, ih]
    split <;> rfl

/-- An edit of a sorted list. -/
def Edit.sort (m : List (κ × ν)) : Edit κ ν → List (κ × ν)
  | set k v => Assoc.insert k v m
  | remove k => Assoc.remove k m

theorem Sorted.sort {m : List (κ × ν)} (h : Sorted m) (e : Edit κ ν) : Sorted (e.sort m) := by
  cases e with
  | set k v => exact h.insert k v
  | remove k => exact h.remove k

theorem lookup_sort {m : List (κ × ν)} (h : Sorted m) (k : κ) (e : Edit κ ν) :
    lookup k (e.sort m) = if e.key = k then e.value else lookup k m := by
  cases e with
  | set k' v => exact lookup_insert k' k v m
  | remove k' => exact lookup_apply h.nodup k (.remove k')

/-- **The last edit counts**, here too. -/
theorem lookup_sort_run {m : List (κ × ν)} (h : Sorted m) (k : κ) (es : List (Edit κ ν)) :
    lookup k (es.foldl Edit.sort m) = (last k es).getD (lookup k m) := by
  induction es generalizing m with
  | nil => rfl
  | cons e es ih =>
    rw [List.foldl_cons, ih (h.sort e), lookup_sort h, last]
    cases last k es <;> by_cases hk : e.key = k <;> simp [hk]

end

end MochaHal.Assoc
