import Mathlib.Tactic.Common
import Mathlib.Logic.Function.Basic
import Mathlib.Algebra.Order.Field.Rat

/-! `libmocha/camera/CameraMetadata.cpp`.  An object owns at most one buffer of the metadata
library, and lends it out, hands it over or frees it.  What is undefined is `none`: a buffer
is read or freed that is not there. -/

namespace MochaHal.Camera.Metadata
open Function

/-! ## The metadata library -/

inductive Status
  | OK
  | INVALID_OPERATION
  | BAD_VALUE
  | NO_MEMORY
  | NAME_NOT_FOUND
  | ERROR
  deriving DecidableEq, Repr

inductive EntryType
  | BYTE
  | INT32
  | FLOAT
  | INT64
  | DOUBLE
  | RATIONAL
  deriving DecidableEq, Repr

/-- An entry of a buffer, with its values. -/
abbrev Entry (δ : Type) := BitVec 32 × List δ

/-- The functions of the library, on what a buffer holds.  `tag_type` is `none` for -1, and
`find` is `none` for `NAME_NOT_FOUND`. -/
structure Library (β δ : Type) where
  tag_type : BitVec 32 → Option EntryType
  entry_data_size : EntryType → Nat → Nat
  allocate : Nat → Nat → β
  clone : β → β
  entries : β → List (Entry δ)
  entry_count : β → Nat
  entry_capacity : β → Nat
  data_count : β → Nat
  data_capacity : β → Nat
  append : β → β → Status × β
  find : β → BitVec 32 → Option Nat
  add : β → Entry δ → Status × β
  update : β → Nat → List δ → Status × β
  delete : β → Nat → Status × β
  sort : β → Status × β

/-! ## The source -/

/-- The objects, the buffers, and those that callers own. -/
structure Sys (ι β : Type) where
  mBuffer : ι → Option Nat
  mLocked : ι → Bool
  buffer : Nat → Option β
  next : Nat
  client : Nat → Bool

variable {ι β δ : Type} [DecidableEq ι] (lib : Library β δ)

def Sys.start : Sys ι β := ⟨fun _ => none, fun _ => false, fun _ => none, 0, fun _ => false⟩

def Sys.setBuffer (s : Sys ι β) (i : ι) (p : Option Nat) : Sys ι β := { s with mBuffer := update s.mBuffer i p }

def Sys.write (s : Sys ι β) (a : Nat) (b : β) : Sys ι β := { s with buffer := update s.buffer a (some b) }

/-- `free_camera_metadata` of what is not there is undefined. -/
def Sys.free (s : Sys ι β) (a : Nat) : Option (Sys ι β) :=
  (s.buffer a).map fun _ => { s with buffer := update s.buffer a none }

/-- The new buffer is at `next`. -/
def Sys.alloc (s : Sys ι β) (b : β) : Sys ι β :=
  { s with buffer := update s.buffer s.next (some b), next := s.next + 1 }

def Sys.clear (s : Sys ι β) (i : ι) : Option (Sys ι β) :=
  if s.mLocked i then some s
  else
    match s.mBuffer i with
    | none => some s
    | some a => (s.free a).map fun s => s.setBuffer i none

/-- `clone_camera_metadata`, of a null pointer too. -/
def Sys.clone (mem : Bool) (s : Sys ι β) (buffer : Option Nat) : Option (Option Nat × Sys ι β) :=
  match buffer with
  | none => some (none, s)
  | some a => (s.buffer a).map fun b => if mem then (some s.next, s.alloc (lib.clone b)) else (none, s)

/-- `operator=`. -/
def Sys.assign (mem : Bool) (s : Sys ι β) (i : ι) (buffer : Option Nat) : Option (Sys ι β) :=
  if s.mLocked i then some s
  else if buffer = s.mBuffer i then some s
  else (s.clone lib mem buffer).bind fun r => (r.2.clear i).map fun s => s.setBuffer i r.1

def Sys.getAndLock (s : Sys ι β) (i : ι) : Option Nat × Sys ι β :=
  (s.mBuffer i, { s with mLocked := update s.mLocked i true })

def Sys.unlock (s : Sys ι β) (i : ι) (buffer : Option Nat) : Status × Sys ι β :=
  if ¬ s.mLocked i then (.INVALID_OPERATION, s)
  else if buffer ≠ s.mBuffer i then (.BAD_VALUE, s)
  else (.OK, { s with mLocked := update s.mLocked i false })

def Sys.release (s : Sys ι β) (i : ι) : Option Nat × Sys ι β :=
  if s.mLocked i then (none, s) else (s.mBuffer i, s.setBuffer i none)

def Sys.acquire (s : Sys ι β) (i : ι) (buffer : Option Nat) : Option (Sys ι β) :=
  if s.mLocked i then some s else (s.clear i).map fun s => s.setBuffer i buffer

def Sys.acquireFrom (s : Sys ι β) (i j : ι) : Option (Sys ι β) :=
  if s.mLocked i then some s else (s.release j).2.acquire i (s.release j).1

/-- The new capacity for so many more. -/
def grownCount (count extra cap : Nat) : Nat := if count + extra > cap then (count + extra) * 2 else cap

def grows (b : β) (extraEntries extraData : Nat) : Bool :=
  grownCount (lib.entry_count b) extraEntries (lib.entry_capacity b) > lib.entry_capacity b ∨
    grownCount (lib.data_count b) extraData (lib.data_capacity b) > lib.data_capacity b

/-- Without memory the old buffer is not freed: the only pointer to it is overwritten. -/
def Sys.resizeIfNeeded (mem : Bool) (s : Sys ι β) (i : ι) (extraEntries extraData : Nat) :
    Option (Status × Sys ι β) :=
  match s.mBuffer i with
  | none =>
    if mem then some (.OK, (s.alloc (lib.allocate (extraEntries * 2) (extraData * 2))).setBuffer i (some s.next))
    else some (.NO_MEMORY, s)
  | some oldBuffer =>
    (s.buffer oldBuffer).bind fun b =>
      if grows lib b extraEntries extraData then
        if mem then
          let fresh := lib.allocate (grownCount (lib.entry_count b) extraEntries (lib.entry_capacity b))
            (grownCount (lib.data_count b) extraData (lib.data_capacity b))
          let s' := ((s.alloc fresh).setBuffer i (some s.next)).write s.next (lib.append fresh b).2
          (s'.free oldBuffer).map fun s => (.OK, s)
        else some (.NO_MEMORY, s.setBuffer i none)
      else some (.OK, s)

/-- `other` is read before the buffer grows, and again behind that. -/
def Sys.append (mem : Bool) (s : Sys ι β) (i : ι) (other : Option Nat) : Option (Status × Sys ι β) :=
  if s.mLocked i then some (.INVALID_OPERATION, s)
  else
    (other.bind s.buffer).bind fun b =>
      (s.resizeIfNeeded lib mem i (lib.entry_count b) (lib.data_count b)).bind fun r =>
        (other.bind r.2.buffer).bind fun src =>
          match r.2.mBuffer i with
          | none => some (.ERROR, r.2)
          | some a => (r.2.buffer a).map fun dst => ((lib.append dst src).1, r.2.write a (lib.append dst src).2)

def Sys.sort (s : Sys ι β) (i : ι) : Option (Status × Sys ι β) :=
  if s.mLocked i then some (.INVALID_OPERATION, s)
  else
    match s.mBuffer i with
    | none => some (.ERROR, s)
    | some a => (s.buffer a).map fun b => ((lib.sort b).1, s.write a (lib.sort b).2)

def checkType (tag : BitVec 32) (expectedType : EntryType) : Status :=
  match lib.tag_type tag with
  | none => .INVALID_OPERATION
  | some tagType => if tagType ≠ expectedType then .INVALID_OPERATION else .OK

/-- `src`: the buffer that `data` points into, if it points into one. -/
def Sys.updateImpl (mem : Bool) (s : Sys ι β) (i : ι) (tag : BitVec 32) (data : List δ) (src : Option Nat) :
    Option (Status × Sys ι β) :=
  if s.mLocked i then some (.INVALID_OPERATION, s)
  else
    match lib.tag_type tag with
    | none => some (.BAD_VALUE, s)
    | some type =>
      if src.isSome ∧ src = s.mBuffer i then some (.INVALID_OPERATION, s)
      else
        (s.resizeIfNeeded lib mem i 1 (lib.entry_data_size type data.length)).bind fun r =>
          if r.1 ≠ .OK then some r
          else
            -- the data is read now
            if src.any fun p => (r.2.buffer p).isNone then none
            else
              (r.2.mBuffer i).bind fun a =>
                (r.2.buffer a).map fun b =>
                  let done := match lib.find b tag with
                    | none => lib.add b (tag, data)
                    | some index => lib.update b index data
                  (done.1, r.2.write a done.2)

/-- The overloads differ in `type` only; the one for a string passes its end with it. -/
def Sys.update (mem : Bool) (s : Sys ι β) (i : ι) (type : EntryType) (tag : BitVec 32) (data : List δ)
    (src : Option Nat) : Option (Status × Sys ι β) :=
  if s.mLocked i then some (.INVALID_OPERATION, s)
  else if checkType lib tag type ≠ .OK then some (checkType lib tag type, s)
  else s.updateImpl lib mem i tag data src

/-- The values of the entry that the library finds. -/
def lookup (b : β) (tag : BitVec 32) : Option (List δ) :=
  (lib.find b tag).bind fun index => (lib.entries b)[index]?.map Prod.snd

/-- `find` of a `const` object. -/
def Sys.findConst (s : Sys ι β) (i : ι) (tag : BitVec 32) : Option (Option (List δ)) :=
  match s.mBuffer i with
  | none => some none
  | some a => (s.buffer a).map fun b => lookup lib b tag

def Sys.find (s : Sys ι β) (i : ι) (tag : BitVec 32) : Option (Option (List δ)) :=
  if s.mLocked i then some none else s.findConst lib i tag

def Sys.entryCount (s : Sys ι β) (i : ι) : Option Nat :=
  match s.mBuffer i with
  | none => some 0
  | some a => (s.buffer a).map lib.entry_count

def Sys.erase (s : Sys ι β) (i : ι) (tag : BitVec 32) : Option (Status × Sys ι β) :=
  if s.mLocked i then some (.INVALID_OPERATION, s)
  else
    match s.mBuffer i with
    | none => some (.ERROR, s)
    | some a =>
      (s.buffer a).map fun b =>
        match lib.find b tag with
        | none => (.OK, s)
        | some index => ((lib.delete b index).1, s.write a (lib.delete b index).2)

/-- `got`: the error of the parcel, or the buffer that was made of it. -/
def Sys.readFromParcel (s : Sys ι β) (i : ι) (got : Except Status (Option β)) : Option (Status × Sys ι β) :=
  if s.mLocked i then some (.INVALID_OPERATION, s)
  else
    match got with
    | .error res => some (res, s)
    | .ok none => (s.clear i).map fun s => (.OK, s)
    | .ok (some b) => ((s.alloc b).clear i).map fun s' => (.OK, s'.setBuffer i (some s.next))

def Sys.swap (s : Sys ι β) (i j : ι) : Sys ι β :=
  if s.mLocked i then s
  else if s.mLocked j then s
  else (s.setBuffer j (s.mBuffer i)).setBuffer i (s.mBuffer j)

/-- The destructor. -/
def Sys.destroy (s : Sys ι β) (i : ι) : Option (Sys ι β) :=
  { s with mLocked := Function.update s.mLocked i false }.clear i

end MochaHal.Camera.Metadata
