import MochaHal.Camera.Device

/-! The in-flight tracker of `camera/InFlightTracker.h`: a map from frame numbers
to requests, kept as a list in key order as `std::map` iterates it.  Each method
runs under the tracker's mutex, so it is one step; `answer` gives the answer and
the new map for the calls of a device program that go to the tracker. -/

namespace MochaHal.Camera

structure InFlightRequest where
  frameNumber : BitVec 32
  outputBuffer : Option Nat
  markedError : Bool
  deriving DecidableEq, Repr

abbrev InFlightTracker := List InFlightRequest

namespace InFlightTracker

variable (t : InFlightTracker) (f g : BitVec 32)

/-- `mContexts.find`. -/
def lookup (t : InFlightTracker) (f : BitVec 32) : Option InFlightRequest :=
  t.find? fun r => r.frameNumber = f

/-- `mContexts[frameNumber] = req`. -/
def insert (r : InFlightRequest) : InFlightTracker → InFlightTracker
  | [] => [r]
  | x :: xs =>
    if r.frameNumber < x.frameNumber then r :: x :: xs
    else if r.frameNumber = x.frameNumber then r :: xs
    else x :: insert r xs

def add (outputBuffer : Option Nat) : InFlightTracker := insert ⟨f, outputBuffer, false⟩ t

/-- `erase`, with the answer whether there was something to erase. -/
def remove : Bool × InFlightTracker := ((lookup t f).isSome, t.filter fun r => r.frameNumber ≠ f)

def markAllAsError : InFlightTracker := t.map fun r => { r with markedError := true }

def isError : Bool := match lookup t f with
  | none => false
  | some r => r.markedError

def count : Nat := t.length

def drainAll : List (BitVec 32) × InFlightTracker := (t.map (·.frameNumber), [])

/-! ## Lookups after each operation -/

theorem lookup_cons (x : InFlightRequest) :
    lookup (x :: t) f = if x.frameNumber = f then some x else lookup t f := by
  by_cases hx : x.frameNumber = f
  · simp [lookup, hx]
  · simp [lookup, hx]

theorem mem_of_lookup {t : InFlightTracker} {f : BitVec 32} {r : InFlightRequest}
    (h : t.lookup f = some r) : r ∈ t ∧ r.frameNumber = f :=
  ⟨List.mem_of_find?_eq_some h, by simpa using List.find?_some h⟩

theorem lookup_insert (r : InFlightRequest) :
    lookup (insert r t) f = if r.frameNumber = f then some r else lookup t f := by
  induction t with
  | nil => exact lookup_cons [] f r
  | cons x xs ih =>
    unfold insert
    split
    · exact lookup_cons (x :: xs) f r
    · split
      · next _ heq =>
        by_cases hf : r.frameNumber = f
        · rw [lookup_cons, if_pos hf, if_pos hf]
        · rw [lookup_cons, lookup_cons, if_neg hf, if_neg hf, if_neg (heq ▸ hf)]
      · next _ hne =>
        by_cases hx : x.frameNumber = f
        · rw [lookup_cons, lookup_cons, if_pos hx, if_neg (hx ▸ hne), if_pos hx]
        · rw [lookup_cons, lookup_cons, if_neg hx, if_neg hx, ih]

@[simp] theorem lookup_add (b : Option Nat) :
    lookup (add t g b) f = if g = f then some ⟨g, b, false⟩ else lookup t f := lookup_insert t f _

@[simp] theorem lookup_remove :
    lookup (remove t g).2 f = if g = f then none else lookup t f := by
  unfold remove lookup
  rw [List.find?_filter]
  by_cases hf : g = f
  · subst hf
    simp
  · rw [if_neg hf]
    congr 1
    funext r
    by_cases hr : r.frameNumber = f
    · simp [hr, Ne.symm hf]
    · simp [hr]

@[simp] theorem lookup_markAllAsError :
    lookup (markAllAsError t) f = (lookup t f).map fun r => { r with markedError := true } := by
  unfold markAllAsError lookup
  rw [List.find?_map]
  rfl

@[simp] theorem lookup_drainAll : lookup (drainAll t).2 f = none := rfl

/-! ## Calls to the tracker -/

/-- The answer to a call that goes to the tracker and the map after it; `none` for
the calls that go elsewhere. -/
def answer (t : InFlightTracker) : (o : DevOp) → Option (o.Ans × InFlightTracker)
  | .isError f => some (isError t f, t)
  | .add f buffer => some ((), add t f buffer)
  | .remove f => some (remove t f)
  | .markAllAsError => some ((), markAllAsError t)
  | .drainAll => some (drainAll t)
  | .count => some (count t, t)
  | _ => none

end InFlightTracker

end MochaHal.Camera
