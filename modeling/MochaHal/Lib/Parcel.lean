import Mathlib.Tactic.Common
import Mathlib.Algebra.Order.Field.Rat

/-! Values that are written one behind the other, and read back in the order in which they
were written.  A format is what a parcel makes of a number and of a text; `readLoop` is a loop
that reads as many items as a number before them says, and adds each to what it has. -/

namespace MochaHal.Parcel

abbrev String8 := List Char

def INT32_MAX : Nat := 2147483647

/-- The words of a parcel. -/
structure Format (Word : Type) where
  int32 : BitVec 32 → List Word
  string8 : String8 → List Word
  readInt32 : List Word → Option (BitVec 32 × List Word)
  readString8 : List Word → String8 × List Word

/-- What is written is read back; the length of a text is written as an `int32_t`. -/
structure Format.Documented {Word : Type} (p : Format Word) : Prop where
  readInt32 : ∀ v rest, p.readInt32 (p.int32 v ++ rest) = some (v, rest)
  readString8 : ∀ s rest, s.length < INT32_MAX → p.readString8 (p.string8 s ++ rest) = (s, rest)

section
variable {Word ε α σ : Type} (read : List Word → Except ε (α × List Word)) (add : σ → α → σ)

def readLoop : Nat → σ → List Word → Except ε (σ × List Word)
  | 0, s, words => .ok (s, words)
  | n + 1, s, words =>
    match read words with
    | .error e => .error e
    | .ok (a, words) => readLoop n (add s a) words

/-- **Reading back.** -/
theorem readLoop_write (write : α → List Word) (as : List α)
    (h : ∀ a ∈ as, ∀ rest, read (write a ++ rest) = .ok (a, rest)) (s : σ) (rest : List Word) :
    readLoop read add as.length s (as.flatMap write ++ rest) = .ok (as.foldl add s, rest) := by
  induction as generalizing s with
  | nil => rfl
  | cons a as ih =>
    rw [List.flatMap_cons, List.append_assoc, List.length_cons, readLoop,
      h a List.mem_cons_self]
    exact ih (fun b hb => h b (List.mem_cons_of_mem _ hb)) _

/-- The items that a loop reads. -/
def readItems (n : Nat) (words : List Word) : Except ε (List α × List Word) :=
  readLoop read (fun as a => as ++ [a]) n [] words

theorem readLoop_append (s : σ) (n : Nat) (as : List α) (words : List Word) :
    readLoop read add n (as.foldl add s) words =
      (readLoop read (fun as a => as ++ [a]) n as words).map fun r => (r.1.foldl add s, r.2) := by
  induction n generalizing as words with
  | zero => rfl
  | succ n ih =>
    unfold readLoop
    cases read words with
    | error e => rfl
    | ok r =>
      have hrest := ih (as ++ [r.1]) r.2
      rw [List.foldl_append] at hrest
      exact hrest

/-- **A loop reads its items, and adds them in their order.** -/
theorem readLoop_items (s : σ) (n : Nat) (words : List Word) :
    readLoop read add n s words = (readItems read n words).map fun r => (r.1.foldl add s, r.2) :=
  readLoop_append read add s n [] words

variable {read add}

/-- What a loop has read, when it comes to its end. -/
theorem readLoop_ok {n : Nat} {s s' : σ} {words words' : List Word}
    (h : readLoop read add n s words = .ok (s', words')) :
    ∃ as : List α, as.length = n ∧ s' = as.foldl add s ∧
      ∀ a ∈ as, ∃ before after, read before = .ok (a, after) := by
  induction n generalizing s words with
  | zero =>
    cases h
    exact ⟨[], rfl, rfl, fun a ha => by cases ha⟩
  | succ n ih =>
    unfold readLoop at h
    split at h
    case h_1 => cases h
    case h_2 a after ha =>
      obtain ⟨as, hlength, hs, has⟩ := ih h
      refine ⟨a :: as, by simp [hlength], hs, fun b hb => ?_⟩
      rcases List.mem_cons.mp hb with rfl | hb
      · exact ⟨_, _, ha⟩
      · exact has b hb

/-- A loop stops with the error of an item. -/
theorem readLoop_error {n : Nat} {s : σ} {e : ε} {words : List Word} (h : readLoop read add n s words = .error e) :
    ∃ words', read words' = .error e := by
  induction n generalizing s words with
  | zero => cases h
  | succ n ih =>
    unfold readLoop at h
    split at h
    case h_1 e' he =>
      cases h
      exact ⟨_, he⟩
    case h_2 a after ha => exact ih h

theorem readItems_ok {n : Nat} {as : List α} {words words' : List Word} (h : readItems read n words = .ok (as, words')) :
    as.length = n ∧ ∀ a ∈ as, ∃ before after, read before = .ok (a, after) := by
  obtain ⟨items, hlength, heq, hitems⟩ := readLoop_ok h
  obtain rfl : as = items := by simpa [← List.flatMap_def] using heq
  exact ⟨hlength, hitems⟩

end

end MochaHal.Parcel
