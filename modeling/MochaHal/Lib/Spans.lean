import Mathlib.Tactic.Common
import MochaHal.Lib.Entries

/-! A table that grows where a span opens and is counted where it closes.  What stands in
a span changes the entry behind the counted ones.  Nested spans share an entry
(`written_lt_of_nested`), spans that are not nested have one each (`run_span`). -/

namespace MochaHal.Spans

variable {D P : Type}

/-- `entries` is `none` for a null pointer; an entry is `none` as long as it was not
written. -/
structure Table (D : Type) where
  entries : Option (List (Option D))
  count : Nat
  flag : Bool
  deriving DecidableEq

def Table.empty : Table D := ⟨none, 0, false⟩

/-- `realloc`. -/
def resize (entries : List (Option D)) (n : Nat) : List (Option D) :=
  entries.take n ++ List.replicate (n - entries.length) none

/-- The entry behind the counted ones. -/
def Table.current (t : Table D) : Option D := (t.entries.bind fun entries => entries[t.count]?).join

def Table.set (t : Table D) (d : D) : Table D :=
  { t with entries := t.entries.map fun entries => entries.set t.count (some d) }

/-- A span opens.  `fresh` writes its entry over what is there. -/
def Table.start (fresh : Option D → D) (t : Table D) : Table D :=
  { t with
    entries := some ((resize (t.entries.getD []) (t.count + 1)).set t.count (some (fresh t.current)))
    flag := true }

/-- The memory for a span is not there, and the old one is lost. -/
def Table.lose (t : Table D) : Table D := { t with entries := none }

def Table.stop (t : Table D) : Table D := { t with count := t.count + 1, flag := false }

inductive Op (P : Type)
  | start
  | stop
  | prop (p : P)

def step (fresh : Option D → D) (update : P → D → Option D) (t : Table D) : Op P → Option (Table D)
  | .start => some (t.start fresh)
  | .stop => some t.stop
  | .prop p => if t.flag then (t.current.bind (update p)).map t.set else some t

def run (fresh : Option D → D) (update : P → D → Option D) (t : Table D) (ops : List (Op P)) : Option (Table D) :=
  ops.foldlM (step fresh update) t

/-- An entry that is made by the properties of one span. -/
def entryOf (fresh : Option D → D) (update : P → D → Option D) (ps : List P) : Option D :=
  ps.foldlM (fun d p => update p d) (fresh none)

variable {fresh : Option D → D} {update : P → D → Option D} {t t' : Table D}

theorem run_append (ops ops' : List (Op P)) :
    run fresh update t (ops ++ ops') = (run fresh update t ops).bind fun t => run fresh update t ops' :=
  List.foldlM_append

theorem run_cons (op : Op P) (ops : List (Op P)) :
    run fresh update t (op :: ops) = (step fresh update t op).bind fun t => run fresh update t ops :=
  List.foldlM_cons

/-! ## Spans that are not nested -/

/-- A table of whole entries, between two spans. -/
def closed (done : List D) (entries : Option (List (Option D))) : Prop := entries.getD [] = done.map some

/-- The table inside the span behind `done`. -/
def inside (done : List D) (d : D) : Table D := ⟨some (done.map some ++ [some d]), done.length, true⟩

theorem resize_length (entries : List (Option D)) : resize entries (entries.length + 1) = entries ++ [none] := by
  unfold resize
  rw [List.take_of_length_le (Nat.le_succ _), Nat.add_sub_cancel_left]
  rfl

theorem start_closed {done : List D} (hclosed : closed done t.entries) (hcount : t.count = done.length) :
    t.start fresh = inside done (fresh none) := by
  have hcurrent : t.current = none := by
    unfold Table.current
    cases hentries : t.entries with
    | none => rfl
    | some entries =>
      obtain rfl : entries = done.map some := by
        unfold closed at hclosed
        rwa [hentries] at hclosed
      rw [Option.bind_some, hcount, List.getElem?_eq_none (by simp)]
      rfl
  have hlength : t.count = (done.map some).length := by rw [hcount, List.length_map]
  unfold Table.start inside
  rw [hcurrent, show t.entries.getD [] = done.map some from hclosed, hlength, resize_length, List.set_append_right,
    Nat.sub_self, List.length_map]
  · rfl
  · exact Nat.le_refl _

theorem inside_current (done : List D) (d : D) : (inside done d).current = some d := by
  unfold inside Table.current
  dsimp only [Option.bind_some]
  rw [List.getElem?_append_right (by simp), List.length_map, Nat.sub_self]
  rfl

theorem inside_set (done : List D) (d d' : D) : (inside done d).set d' = inside done d' := by
  unfold inside Table.set
  dsimp only [Option.map_some]
  rw [List.set_append_right _ _ (by simp), List.length_map, Nat.sub_self]
  rfl

theorem run_props (done : List D) (d : D) (ps : List P) :
    run fresh update (inside done d) (ps.map .prop) =
      (ps.foldlM (fun d p => update p d) d).map (inside done) := by
  induction ps generalizing d with
  | nil => rfl
  | cons p ps ih =>
    have hstep : step fresh update (inside done d) (.prop p) = (update p d).map (inside done) := by
      show (((inside done d).current.bind (update p)).map (inside done d).set) = _
      rw [inside_current, Option.bind_some]
      exact congrArg (fun f => (update p d).map f) (funext (inside_set done d))
    rw [List.map_cons, run_cons, hstep, List.foldlM_cons]
    cases update p d with
    | none => rfl
    | some d' => exact ih d'

/-- **A span adds its entry.** -/
theorem run_span {done : List D} (hclosed : closed done t.entries) (hcount : t.count = done.length) (ps : List P) :
    run fresh update t (.start :: (ps.map .prop ++ [.stop])) =
      (entryOf fresh update ps).map fun d => ⟨some ((done ++ [d]).map some), (done ++ [d]).length, false⟩ := by
  rw [run_cons]
  show run fresh update (t.start fresh) _ = _
  rw [start_closed hclosed hcount, run_append, run_props]
  unfold entryOf
  cases ps.foldlM (fun d p => update p d) (fresh none) with
  | none => rfl
  | some d =>
    show some (Table.stop (inside done d)) = some _
    unfold Table.stop inside
    simp

/-! ## Spans that are nested -/

def Op.isStart : Op P → Bool
  | .start => true
  | _ => false

@[simp] theorem isStart_start : (Op.start : Op P).isStart = true := rfl

@[simp] theorem isStart_stop : (Op.stop : Op P).isStart = false := rfl

@[simp] theorem isStart_prop (p : P) : (Op.prop p).isStart = false := rfl

/-- No span opens while another one is open. -/
def Apart : Bool → List (Op P) → Prop
  | _, [] => True
  | open_, .start :: rest => open_ = false ∧ Apart true rest
  | _, .stop :: rest => Apart false rest
  | open_, .prop _ :: rest => Apart open_ rest

/-- The entries that were written. -/
def Table.written (t : Table D) : Nat := (t.entries.getD []).countP Option.isSome

/-- The entry of an open span was written. -/
def OpenWritten (t : Table D) : Prop := t.flag = true → t.current ≠ none

theorem length_resize (entries : List (Option D)) (n : Nat) : (resize entries n).length = n := by
  unfold resize
  rw [List.length_append, List.length_take, List.length_replicate]
  omega

theorem written_resize (entries : List (Option D)) (n : Nat) :
    (resize entries n).countP Option.isSome ≤ entries.countP Option.isSome := by
  unfold resize
  rw [List.countP_append, List.countP_replicate, if_neg (by exact Bool.false_ne_true), Nat.add_zero]
  exact (List.take_sublist n entries).countP_le

theorem start_current : (t.start fresh).current = some (fresh t.current) := by
  unfold Table.start Table.current
  dsimp only [Option.bind_some]
  rw [List.getElem?_set_self (by rw [length_resize]; exact Nat.lt_succ_self _)]
  rfl

theorem current_eq_some {d : D} :
    t.current = some d ↔ ∃ entries, t.entries = some entries ∧ entries[t.count]? = some (some d) := by
  unfold Table.current
  cases t.entries with
  | none => simp
  | some entries => simp [Option.join_eq_some_iff]

theorem set_current {d d' : D} (h : t.current = some d) : (t.set d').current = some d' := by
  obtain ⟨entries, hentries, hentry⟩ := current_eq_some.mp h
  obtain ⟨hlt, -⟩ := List.getElem?_eq_some_iff.mp hentry
  unfold Table.set Table.current
  rw [hentries]
  dsimp only [Option.map_some, Option.bind_some]
  rw [List.getElem?_set_self hlt]
  rfl

theorem set_written {d d' : D} (h : t.current = some d) : (t.set d').written = t.written := by
  obtain ⟨entries, hentries, hentry⟩ := current_eq_some.mp h
  have hset := Entries.countP_set_add (p := Option.isSome) hentry (some d')
  unfold Table.set Table.written
  rw [hentries]
  simpa using hset

/-- A span that opens writes one entry at most, and none that was not written if another
one is open. -/
theorem start_written : (t.start fresh).written ≤ t.written + (if t.current = none then 1 else 0) := by
  have hlt : t.count < (resize (t.entries.getD []) (t.count + 1)).length := by
    rw [length_resize]
    exact Nat.lt_succ_self _
  have hset := Entries.countP_set_add (p := Option.isSome) (List.getElem?_eq_getElem hlt) (some (fresh t.current))
  have hle := written_resize (t.entries.getD []) (t.count + 1)
  show ((resize _ _).set _ _).countP Option.isSome ≤ (t.entries.getD []).countP Option.isSome + _
  rw [Option.isSome_some, Bool.toNat_true] at hset
  cases hcurrent : t.current with
  | none =>
    rw [hcurrent] at hset
    rw [if_pos rfl]
    omega
  | some d =>
    obtain ⟨entries, hentries, hentry⟩ := current_eq_some.mp hcurrent
    have hkept : (resize (t.entries.getD []) (t.count + 1))[t.count] = some d := by
      refine Option.some.inj ((List.getElem?_eq_getElem hlt).symm.trans ?_)
      obtain ⟨hcount, -⟩ := List.getElem?_eq_some_iff.mp hentry
      rw [hentries, Option.getD_some, resize, List.getElem?_append_left (by rw [List.length_take]; omega),
        List.getElem?_take_of_lt (Nat.lt_succ_self _), hentry]
    rw [hkept, Option.isSome_some, Bool.toNat_true, hcurrent] at hset
    rw [if_neg (Option.some_ne_none d)]
    omega

/-- What one step writes. -/
theorem step_written {op : Op P} (hopen : OpenWritten t) (h : step fresh update t op = some t') :
    OpenWritten t' ∧ t'.written ≤ t.written + (if op.isStart ∧ t.flag = false then 1 else 0) := by
  cases op with
  | start =>
    obtain rfl := Option.some.inj h
    refine ⟨fun _ => by rw [start_current]; exact Option.some_ne_none _, Nat.le_trans start_written ?_⟩
    by_cases hflag : t.flag = false
    · simp only [isStart_start, hflag, and_self, if_true]
      split <;> omega
    · rw [if_neg (hopen (Bool.not_eq_false _ ▸ hflag))]
      exact Nat.le_add_right _ _
  | stop =>
    obtain rfl := Option.some.inj h
    exact ⟨fun hflag => (by cases hflag), Nat.le_add_right _ _⟩
  | prop p =>
    rw [step] at h
    split at h
    case isFalse =>
      obtain rfl := Option.some.inj h
      exact ⟨hopen, Nat.le_add_right _ _⟩
    case isTrue hflag =>
      obtain ⟨d', hd', rfl⟩ := Option.map_eq_some_iff.mp h
      obtain ⟨d, hd, -⟩ := Option.bind_eq_some_iff.mp hd'
      refine ⟨fun _ => by rw [set_current hd]; exact Option.some_ne_none _, ?_⟩
      rw [set_written hd]
      exact Nat.le_add_right _ _

/-- **Nested spans share an entry.** -/
theorem written_le {ops : List (Op P)} (hopen : OpenWritten t) (h : run fresh update t ops = some t') :
    t'.written ≤ t.written + ops.countP Op.isStart ∧
      (¬ Apart t.flag ops → t'.written < t.written + ops.countP Op.isStart) := by
  induction ops generalizing t with
  | nil =>
    obtain rfl := Option.some.inj h
    exact ⟨Nat.le_refl _, fun hnot => absurd trivial hnot⟩
  | cons op ops ih =>
    rw [run_cons] at h
    obtain ⟨t₁, h₁, h⟩ := Option.bind_eq_some_iff.mp h
    obtain ⟨hopen₁, hwritten⟩ := step_written hopen h₁
    obtain ⟨hle, hlt⟩ := ih hopen₁ h
    rw [List.countP_cons]
    cases op with
    | start =>
      obtain rfl := Option.some.inj h₁
      cases hflag : t.flag with
      | false =>
        simp only [isStart_start, hflag, and_self, if_true] at hwritten ⊢
        refine ⟨by omega, fun hnot => ?_⟩
        have := hlt fun hapart => hnot ⟨rfl, hapart⟩
        omega
      | true =>
        simp only [isStart_start, hflag, Bool.true_eq_false, and_false, if_false, if_true] at hwritten ⊢
        exact ⟨by omega, fun _ => by omega⟩
    | stop =>
      obtain rfl := Option.some.inj h₁
      simp only [isStart_stop, Bool.false_eq_true, false_and, if_false] at hwritten ⊢
      exact ⟨by omega, fun hnot => by have := hlt hnot; omega⟩
    | prop p =>
      have hflag : t₁.flag = t.flag := by
        rw [step] at h₁
        split at h₁
        · obtain ⟨d, -, rfl⟩ := Option.map_eq_some_iff.mp h₁
          rfl
        · rw [Option.some.inj h₁]
      rw [hflag] at hlt
      simp only [isStart_prop, Bool.false_eq_true, false_and, if_false] at hwritten ⊢
      exact ⟨by omega, fun hnot => by have := hlt hnot; omega⟩

/-! ## Counts -/

def Op.isStop : Op P → Bool
  | .stop => true
  | _ => false

@[simp] theorem isStop_prop (p : P) : (Op.prop p).isStop = false := rfl

/-- The spans that closed are counted. -/
theorem run_count {ops : List (Op P)} (h : run fresh update t ops = some t') :
    t'.count = t.count + ops.countP Op.isStop := by
  induction ops generalizing t with
  | nil =>
    obtain rfl := Option.some.inj h
    rfl
  | cons op ops ih =>
    rw [run_cons] at h
    obtain ⟨t₁, h₁, h⟩ := Option.bind_eq_some_iff.mp h
    rw [ih h, List.countP_cons]
    cases op with
    | start =>
      obtain rfl := Option.some.inj h₁
      rfl
    | stop =>
      obtain rfl := Option.some.inj h₁
      show t.count + 1 + _ = t.count + (_ + 1)
      omega
    | prop p =>
      rw [step] at h₁
      split at h₁
      · obtain ⟨d, -, rfl⟩ := Option.map_eq_some_iff.mp h₁
        rfl
      · obtain rfl := Option.some.inj h₁
        rfl

end MochaHal.Spans
