import Mathlib.Tactic.Common

/-! Blocks of an allocator and `realloc`.  A request that cannot be met returns null and
keeps the block.  A request for no bytes may return null as well, and then the block is
gone (`realloc_frees`); that is the one way to lose it (`realloc_kept`). -/

namespace MochaHal.Realloc

inductive Ptr
  | null
  | block (size : Nat) (mem : Nat → BitVec 8)
  | dangling

namespace Ptr

/-- The byte at an offset, where the pointer may be read. -/
def get : Ptr → Nat → Option (BitVec 8)
  | .block size mem, i => if i < size then some (mem i) else none
  | _, _ => none

def set : Ptr → Nat → BitVec 8 → Option Ptr
  | .block size mem, i, v => if i < size then some (.block size (Function.update mem i v)) else none
  | _, _, _ => none

def memset : Ptr → Nat → BitVec 8 → Nat → Option Ptr
  | .block size mem, start, v, len =>
    if start + len ≤ size then some (.block size fun i => if start ≤ i ∧ i < start + len then v else mem i)
    else none
  | _, _, _, _ => none

def isNull : Ptr → Bool
  | .null => true
  | _ => false

/-- The pointer has exactly `n` bytes; null has none. -/
def Holds : Ptr → Nat → Prop
  | .null, n => n = 0
  | .block size _, n => size = n
  | .dangling, _ => False

end Ptr

/-- What `realloc` makes of a request: a block whose new bytes are anything, or null. -/
inductive Answer
  | moved (fresh : Nat → BitVec 8)
  | failed
  | freed

/-- The pointer that is returned and what the old one points to then; `none` where the old
one may not be passed. -/
def realloc : Answer → Ptr → Nat → Option (Ptr × Ptr)
  | _, .dangling, _ => none
  | .moved fresh, .null, size => some (.block size fresh, .null)
  | _, .null, _ => some (.null, .null)
  | .moved fresh, .block old mem, size => some (.block size fun i => if i < old then mem i else fresh i, .dangling)
  | .failed, .block old mem, _ => some (.null, .block old mem)
  | .freed, .block old mem, size => some (.null, if size = 0 then .dangling else .block old mem)

/-- The request frees a block. -/
def Frees (o : Answer) (p : Ptr) (size : Nat) : Prop :=
  o = .freed ∧ size = 0 ∧ ∃ old mem, p = .block old mem

variable {o : Answer} {p : Ptr} {n size : Nat}

theorem realloc_frees (h : Frees o p size) : realloc o p size = some (.null, .dangling) := by
  obtain ⟨rfl, rfl, old, mem, rfl⟩ := h
  rfl

/-- A request that frees nothing fails and keeps everything, or gives a block of the size
that was asked for, with the bytes that fit. -/
theorem realloc_kept (hp : p.Holds n) (h : ¬ Frees o p size) :
    realloc o p size = some (.null, p) ∨
    ∃ mem p', realloc o p size = some (.block size mem, p') ∧
      ∀ i < n, i < size → (Ptr.block size mem).get i = p.get i := by
  cases p with
  | dangling => exact hp.elim
  | null =>
    cases o with
    | moved fresh =>
      refine .inr ⟨fresh, .null, rfl, fun i hi _ => ?_⟩
      have hn : n = 0 := hp
      omega
    | failed => exact .inl rfl
    | freed => exact .inl rfl
  | block old mem =>
    cases o with
    | moved fresh =>
      refine .inr ⟨_, _, rfl, fun i hi hsize => ?_⟩
      have hn : old = n := hp
      simp [Ptr.get, hsize, hn, hi]
    | failed => exact .inl rfl
    | freed =>
      have hsize : size ≠ 0 := fun hsize => h ⟨rfl, hsize, old, mem, rfl⟩
      exact .inl (by simp [realloc, hsize])

/-- A store within a block: the bytes elsewhere stay. -/
theorem set_of_holds {i : Nat} (v : BitVec 8) (hp : p.Holds n) (hi : i < n) :
    ∃ q, p.set i v = some q ∧ q.Holds n ∧ ∀ j, j ≠ i → q.get j = p.get j := by
  cases p with
  | dangling => exact hp.elim
  | null =>
    have hn : n = 0 := hp
    omega
  | block old mem =>
    obtain rfl : old = n := hp
    refine ⟨_, if_pos hi, rfl, fun j hj => ?_⟩
    simp [Ptr.get, Function.update_of_ne hj]

end MochaHal.Realloc
