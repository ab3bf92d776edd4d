import MochaHal.Camera.MetadataOwners

/-! The objects of `libmocha/camera/CameraMetadata.cpp` as values.  What a caller sees of an
object is a list of entries, or nothing.  `Answers` says what each call does to the values, in
terms of the values alone; `objects_as_values` says that every call does this, so that buffers, their
capacities and who shares a pointer with whom do not show. -/

namespace MochaHal.Camera.Metadata
open Function

variable {ι β δ : Type} [DecidableEq ι] {lib : Library β δ} {s s' : Sys ι β} {i j : ι} {a : Nat} {b src : β}
  {mem : Bool}

/-! ## What the library documents -/

/-- The room of an entry outside of the table of entries. -/
def Library.entrySize (lib : Library β δ) (e : Entry δ) : Nat :=
  (lib.tag_type e.1).elim 0 fun type => lib.entry_data_size type e.2.length

/-- The functions do what they are asked for if there is room. -/
structure Library.Documented (lib : Library β δ) : Prop where
  entry_count : ∀ b, lib.entry_count b = (lib.entries b).length
  data_count : ∀ b, lib.data_count b = ((lib.entries b).map lib.entrySize).sum
  allocate : ∀ e d, lib.entries (lib.allocate e d) = [] ∧ lib.entry_capacity (lib.allocate e d) = e ∧
    lib.data_capacity (lib.allocate e d) = d
  clone : ∀ b, lib.entries (lib.clone b) = lib.entries b
  append : ∀ dst src, lib.entry_count dst + lib.entry_count src ≤ lib.entry_capacity dst →
    lib.data_count dst + lib.data_count src ≤ lib.data_capacity dst →
    (lib.append dst src).1 = .OK ∧ lib.entries (lib.append dst src).2 = lib.entries dst ++ lib.entries src ∧
      lib.entry_capacity (lib.append dst src).2 = lib.entry_capacity dst ∧
      lib.data_capacity (lib.append dst src).2 = lib.data_capacity dst
  find_none : ∀ b tag, lib.find b tag = none → ∀ e ∈ lib.entries b, e.1 ≠ tag
  find_some : ∀ b tag k, lib.find b tag = some k → ∃ data, (lib.entries b)[k]? = some (tag, data)
  add : ∀ b e, (lib.tag_type e.1).isSome → lib.entry_count b + 1 ≤ lib.entry_capacity b →
    lib.data_count b + lib.entrySize e ≤ lib.data_capacity b →
    (lib.add b e).1 = .OK ∧ lib.entries (lib.add b e).2 = lib.entries b ++ [e]
  update : ∀ b k tag old data, (lib.entries b)[k]? = some (tag, old) →
    lib.data_count b + lib.entrySize (tag, data) ≤ lib.data_capacity b + lib.entrySize (tag, old) →
    (lib.update b k data).1 = .OK ∧ lib.entries (lib.update b k data).2 = (lib.entries b).set k (tag, data)
  delete : ∀ b k e, (lib.entries b)[k]? = some e →
    (lib.delete b k).1 = .OK ∧ lib.entries (lib.delete b k).2 = (lib.entries b).eraseIdx k
  sort : ∀ b, (lib.sort b).1 = .OK ∧ (lib.entries (lib.sort b).2).Perm (lib.entries b)

/-! ## Values -/

abbrev Value (δ : Type) := Option (List (Entry δ))

def Sys.value (lib : Library β δ) (s : Sys ι β) (i : ι) : Value δ := (s.content i).map lib.entries

def Sys.valueAt (lib : Library β δ) (s : Sys ι β) (p : Option Nat) : Value δ := (p.bind s.buffer).map lib.entries

/-- An entry gets new data, or is added at the end. -/
def Put (tag : BitVec 32) (data : List δ) (old new : List (Entry δ)) : Prop :=
  (∀ e ∈ old, e.1 ≠ tag) ∧ new = old ++ [(tag, data)] ∨
    ∃ k data', old[k]? = some (tag, data') ∧ new = old.set k (tag, data)

/-- The object gets a value of the kind, or without memory loses its own. -/
def Gets (mem : Bool) (V : ι → Value δ) (i : ι) (kind : List (Entry δ) → Prop) (noMemory : Status) (r : Ret δ)
    (V' : ι → Value δ) : Prop :=
  r = .status .OK ∧ (∃ new, kind new ∧ V' = update V i (some new)) ∨
    mem = false ∧ r = .status noMemory ∧ V' = update V i none

def Found (v : Value δ) (tag : BitVec 32) : Option (List δ) → Prop
  | none => ∀ e ∈ v.getD [], e.1 ≠ tag
  | some data => (tag, data) ∈ v.getD []

/-- A call that the lock of the object turns away, and what it does otherwise. -/
def Guarded (locked : Bool) (V : ι → Value δ) (r : Ret δ) (V' : ι → Value δ) (p : Prop) : Prop :=
  if locked then r = .status .INVALID_OPERATION ∧ V' = V else p

/-- What an object makes of a parcel. -/
def Received (lib : Library β δ) (V : ι → Value δ) (i : ι) (r : Ret δ) (V' : ι → Value δ) :
    Except Status (Option β) → Prop
  | .error res => r = .status res ∧ V' = V
  | .ok b => r = .status .OK ∧ V' = update V i (b.map lib.entries)

/-- A call that needs a buffer. -/
def OnBuffer (V : ι → Value δ) (i : ι) (r : Ret δ) (V' : ι → Value δ) (kind : List (Entry δ) → Prop) : Prop :=
  (V i).elim (r = .status .ERROR ∧ V' = V) kind

/-- The answer of a call and the values behind it. -/
def Answers (lib : Library β δ) (s : Sys ι β) (r : Ret δ) (V' : ι → Value δ) : Op ι β δ × Bool → Prop
  | (.construct i _ _, mem) => V' = update (s.value lib) i (if mem then some [] else none)
  | (.copy i j, mem) => V' = update (s.value lib) i (if mem then s.value lib j else none)
  | (.destroy i, _) => V' = update (s.value lib) i none
  | (.assign i p, mem) =>
    V' = if s.mLocked i ∨ p = s.mBuffer i then s.value lib
      else update (s.value lib) i (if mem then s.valueAt lib p else none)
  | (.assignFrom i j, mem) =>
    V' = if s.mLocked i ∨ s.mBuffer j = s.mBuffer i then s.value lib
      else update (s.value lib) i (if mem then s.value lib j else none)
  | (.getAndLock i, _) => r = .buffer (s.mBuffer i) ∧ V' = s.value lib
  | (.unlock i p, _) =>
    r = .status (if s.mLocked i = false then .INVALID_OPERATION else if p ≠ s.mBuffer i then .BAD_VALUE else .OK) ∧
      V' = s.value lib
  | (.release i, _) =>
    if s.mLocked i then r = .buffer none ∧ V' = s.value lib
    else r = .buffer (s.mBuffer i) ∧ V' = update (s.value lib) i none
  | (.clear i, _) => V' = if s.mLocked i then s.value lib else update (s.value lib) i none
  | (.acquire i p, _) => V' = if s.mLocked i then s.value lib else update (s.value lib) i (s.valueAt lib p)
  | (.acquireFrom i j, _) =>
    -- from a locked object it gets nothing, and its own buffer is freed all the same
    V' = if s.mLocked i then s.value lib
      else if s.mLocked j then update (s.value lib) i none
      else update (update (s.value lib) j none) i (s.value lib j)
  | (.append i p, mem) =>
    Guarded (s.mLocked i) (s.value lib) r V' (Gets mem (s.value lib) i
      (fun new => new = (s.value lib i).getD [] ++ (s.valueAt lib p).getD []) .ERROR r V')
  | (.appendFrom i j, mem) =>
    Guarded (s.mLocked i) (s.value lib) r V' (Gets mem (s.value lib) i
      (fun new => new = (s.value lib i).getD [] ++ (s.value lib j).getD []) .ERROR r V')
  | (.sort i, _) =>
    Guarded (s.mLocked i) (s.value lib) r V' (OnBuffer (s.value lib) i r V' fun v =>
      r = .status .OK ∧ ∃ new, new.Perm v ∧ V' = update (s.value lib) i (some new))
  | (.update i type tag data p, mem) =>
    Guarded (s.mLocked i) (s.value lib) r V'
      (if lib.tag_type tag ≠ some type ∨ p.isSome ∧ p = s.mBuffer i then
        r = .status .INVALID_OPERATION ∧ V' = s.value lib
      else Gets mem (s.value lib) i (Put tag data ((s.value lib i).getD [])) .NO_MEMORY r V')
  | (.find i tag, _) =>
    V' = s.value lib ∧ if s.mLocked i then r = .values none else ∃ v, r = .values v ∧ Found (s.value lib i) tag v
  | (.findConst i tag, _) => V' = s.value lib ∧ ∃ v, r = .values v ∧ Found (s.value lib i) tag v
  | (.entryCount i, _) => V' = s.value lib ∧ r = .count ((s.value lib i).getD []).length
  | (.erase i tag, _) =>
    Guarded (s.mLocked i) (s.value lib) r V' (OnBuffer (s.value lib) i r V' fun v =>
      r = .status .OK ∧ ((∀ e ∈ v, e.1 ≠ tag) ∧ V' = s.value lib ∨
        ∃ k data, v[k]? = some (tag, data) ∧ V' = update (s.value lib) i (some (v.eraseIdx k))))
  | (.readFromParcel i got, _) =>
    Guarded (s.mLocked i) (s.value lib) r V' (Received lib (s.value lib) i r V' got)
  | (.swap i j, _) => V' = if s.mLocked i ∨ s.mLocked j then s.value lib else s.value lib ∘ Equiv.swap i j
  | (.give _, _) => V' = s.value lib
  | (.free _, _) => V' = s.value lib

omit [DecidableEq ι] in
theorem value_none (ha : s.mBuffer i = none) : s.value lib i = none := by
  rw [Sys.value, Sys.content, ha]
  rfl

omit [DecidableEq ι] in
theorem value_some (hb : s.content i = some b) : s.value lib i = some (lib.entries b) := by
  rw [Sys.value, hb]
  rfl

theorem Change.value {v : Option β} {lost : Bool} (hc : Change s i v lost s') (h : Sound s) :
    s'.value lib = update (s.value lib) i (v.map lib.entries) := by
  funext k
  by_cases hk : k = i
  · subst hk
    rw [update_self, Sys.value, hc.content h]
  · rw [update_of_ne hk]
    have hslot := hc.others.1 k hk
    refine congrArg (Option.map lib.entries) ?_
    unfold Sys.content
    rw [hslot]
    cases ha : s.mBuffer k with
    | none => rfl
    | some a => exact hc.kept h (h.live k a ha) fun hi => hk (h.alone k i a ha hi)

section
variable (hd : lib.Documented)
include hd

/-- The buffer that a call grows for itself has the old entries, and room. -/
theorem grown_room (c : Option β) (extraEntries extraData : Nat) :
    lib.entries (grown lib c extraEntries extraData) = (c.map lib.entries).getD [] ∧
    lib.entry_count (grown lib c extraEntries extraData) + extraEntries ≤
      lib.entry_capacity (grown lib c extraEntries extraData) ∧
    lib.data_count (grown lib c extraEntries extraData) + extraData ≤
      lib.data_capacity (grown lib c extraEntries extraData) := by
  have hcount : ∀ e d, lib.entry_count (lib.allocate e d) = 0 ∧ lib.data_count (lib.allocate e d) = 0 := by
    intro e d
    rw [hd.entry_count, hd.data_count, (hd.allocate e d).1]
    exact ⟨rfl, rfl⟩
  cases c with
  | none =>
    obtain ⟨hentries, hcap, hdcap⟩ := hd.allocate (extraEntries * 2) (extraData * 2)
    obtain ⟨hc, hdc⟩ := hcount (extraEntries * 2) (extraData * 2)
    simp only [grown, hentries, hcap, hdcap, hc, hdc, Option.map_none, Option.getD_none, true_and]
    omega
  | some b =>
    have hge : ∀ count extra cap, count + extra ≤ grownCount count extra cap := by
      intro count extra cap
      unfold grownCount
      split <;> omega
    have hroom := hge (lib.entry_count b) extraEntries (lib.entry_capacity b)
    have hdroom := hge (lib.data_count b) extraData (lib.data_capacity b)
    simp only [grown, Option.map_some, Option.getD_some]
    split
    case isTrue =>
      generalize grownCount (lib.entry_count b) extraEntries (lib.entry_capacity b) = e at hroom ⊢
      generalize grownCount (lib.data_count b) extraData (lib.data_capacity b) = d at hdroom ⊢
      obtain ⟨hentries, hcap, hdcap⟩ := hd.allocate e d
      obtain ⟨hc, hdc⟩ := hcount e d
      obtain ⟨-, happended, hacap, hadcap⟩ := hd.append (lib.allocate e d) b (by omega) (by omega)
      rw [hentries, List.nil_append] at happended
      have hsame : lib.entry_count (lib.append (lib.allocate e d) b).2 = lib.entry_count b := by
        rw [hd.entry_count, happended, hd.entry_count]
      have hdsame : lib.data_count (lib.append (lib.allocate e d) b).2 = lib.data_count b := by
        rw [hd.data_count, happended, hd.data_count]
      rw [hsame, hdsame, hacap, hadcap, hcap, hdcap]
      exact ⟨happended, hroom, hdroom⟩
    case isFalse hno =>
      simp only [grows, decide_eq_true_eq, not_or, Nat.not_lt] at hno
      exact ⟨rfl, hroom.trans hno.1, hdroom.trans hno.2⟩

theorem put_value {tag : BitVec 32} {type : EntryType} (htype : lib.tag_type tag = some type) (data : List δ)
    (c : Option β) :
    let done := put lib (grown lib c 1 (lib.entry_data_size type data.length)) tag data
    done.1 = .OK ∧ Put tag data ((c.map lib.entries).getD []) (lib.entries done.2) := by
  obtain ⟨hentries, hroom, hdroom⟩ := grown_room hd c 1 (lib.entry_data_size type data.length)
  have hsize : lib.entrySize (tag, data) = lib.entry_data_size type data.length := by
    rw [Library.entrySize, htype]
    rfl
  unfold put Put
  rw [← hentries]
  cases hfind : lib.find (grown lib c 1 (lib.entry_data_size type data.length)) tag with
  | none =>
    obtain ⟨hok, hadded⟩ := hd.add _ (tag, data) (by rw [htype]; rfl) hroom (hsize ▸ hdroom)
    exact ⟨hok, .inl ⟨hd.find_none _ _ hfind, hadded⟩⟩
  | some k =>
    obtain ⟨old, hold⟩ := hd.find_some _ _ _ hfind
    obtain ⟨hok, hset⟩ := hd.update _ k tag old data hold (by omega)
    exact ⟨hok, .inr ⟨k, old, hold, hset⟩⟩

theorem lookup_found (b : β) (tag : BitVec 32) : Found (some (lib.entries b)) tag (lookup lib b tag) := by
  unfold lookup
  cases hfind : lib.find b tag with
  | none => exact hd.find_none b tag hfind
  | some k =>
    obtain ⟨data, hdata⟩ := hd.find_some b tag k hfind
    simpa [hdata, Found] using List.mem_of_getElem? hdata

omit hd in
/-- A growing call that does its work, or fails for want of memory. -/
theorem gets_of_grown (h : Sound s) {c : Bool} {st noMemory : Status} {done : Status × β}
    {kind : List (Entry δ) → Prop} (hkind : done.1 = .OK ∧ kind (lib.entries done.2))
    (hspec : if mem = true ∨ c = false then st = done.1 ∧ Change s i (some done.2) false s'
      else st = noMemory ∧ Change s i none (s.mBuffer i).isSome s') :
    Gets mem (s.value lib) i kind noMemory (.status st) (s'.value lib) := by
  split at hspec
  case isTrue =>
    obtain ⟨rfl, hc⟩ := hspec
    exact .inl ⟨by rw [hkind.1], lib.entries done.2, hkind.2, hc.value h⟩
  case isFalse hfail =>
    obtain ⟨rfl, hc⟩ := hspec
    refine .inr ⟨?_, rfl, hc.value h⟩
    cases mem <;> simp_all

theorem append_value (h : Sound s) {p : Option Nat} (hp : ∀ a, p = some a → s.buffer a ≠ none) {st : Status}
    (happend : s.append lib mem i p = some (st, s')) :
    Guarded (s.mLocked i) (s.value lib) (.status st) (s'.value lib) (Gets mem (s.value lib) i
      (fun new => new = (s.value lib i).getD [] ++ (s.valueAt lib p).getD []) .ERROR (.status st) (s'.value lib)) := by
  cases hi : s.mLocked i with
  | true =>
    obtain ⟨rfl, rfl⟩ : .INVALID_OPERATION = st ∧ s = s' := by simpa [Sys.append, hi] using happend
    exact ⟨rfl, rfl⟩
  | false =>
    rw [Guarded, if_neg (by simp)]
    cases p with
    | none => cases (append_null hi).symm.trans happend
    | some a =>
      obtain ⟨src, hsrc⟩ := Option.ne_none_iff_exists'.mp (hp a rfl)
      by_cases hclash : Clash lib mem s i (some a) (lib.entry_count src) (lib.data_count src)
      · cases (append_clash h hi hsrc hclash).symm.trans happend
      · obtain ⟨st', s₁, happend', hspec⟩ := append_change h hi hsrc hclash
        obtain ⟨rfl, rfl⟩ := Prod.mk.inj (Option.some.inj (happend'.symm.trans happend))
        obtain ⟨hentries, hroom, hdroom⟩ := grown_room hd (s.content i) (lib.entry_count src) (lib.data_count src)
        obtain ⟨hok, happended, -⟩ := hd.append _ src hroom hdroom
        refine gets_of_grown h ⟨hok, ?_⟩ hspec
        rw [happended, hentries, Sys.valueAt, Option.bind_some, hsrc]
        rfl

omit hd in
theorem clear_value (h : Sound s) (hclear : s.clear i = some s') :
    s'.value lib = if s.mLocked i then s.value lib else update (s.value lib) i none := by
  cases hi : s.mLocked i with
  | true =>
    obtain rfl : s = s' := by simpa [Sys.clear, hi] using hclear
    rfl
  | false =>
    obtain ⟨s₁, hclear', hc, -⟩ := clear_change h hi
    obtain rfl := Option.some.inj (hclear'.symm.trans hclear)
    exact hc.value h

omit hd in
/-- An object takes a buffer that is there. -/
theorem setBuffer_value (p : Option Nat) :
    (s.setBuffer i p).value lib = update (s.value lib) i (s.valueAt lib p) := by
  funext k
  by_cases hk : k = i
  · subst hk
    simp [Sys.value, Sys.content, Sys.setBuffer, Sys.valueAt]
  · simp [Sys.value, Sys.content, Sys.setBuffer, update_of_ne hk]

theorem assign_value (h : Sound s) {p : Option Nat} (hp : ∀ a, p = some a → s.buffer a ≠ none)
    (hassign : s.assign lib mem i p = some s') :
    s'.value lib = if s.mLocked i ∨ p = s.mBuffer i then s.value lib
      else update (s.value lib) i (if mem then s.valueAt lib p else none) := by
  cases hi : s.mLocked i with
  | true =>
    obtain rfl : s = s' := by simpa [Sys.assign, hi] using hassign
    simp
  | false =>
    obtain ⟨s₁, hassign', hc⟩ := assign_change lib mem h hi hp
    obtain rfl := Option.some.inj (hassign'.symm.trans hassign)
    rw [hc.value h]
    simp only [Bool.false_eq_true, false_or, assigned]
    split
    case isTrue => exact update_eq_self i _
    case isFalse =>
      cases mem with
      | false => rfl
      | true =>
        cases hb : p.bind s.buffer with
        | none => simp [Sys.valueAt, hb]
        | some b => simp [Sys.valueAt, hb, hd.clone]

omit [DecidableEq ι] hd in
theorem valueAt_slot (j : ι) : s.valueAt lib (s.mBuffer j) = s.value lib j := rfl

omit hd in
theorem acquire_value (h : Sound s) {p : Option Nat} (hp : ∀ a, p = some a → s.client a = true)
    (hacquire : s.acquire i p = some s') :
    s'.value lib = if s.mLocked i then s.value lib else update (s.value lib) i (s.valueAt lib p) := by
  unfold Sys.acquire at hacquire
  cases hi : s.mLocked i with
  | true =>
    obtain rfl : s = s' := by simpa [hi] using hacquire
    rfl
  | false =>
    obtain ⟨s₁, hclear, hc, -⟩ := clear_change h hi
    obtain rfl : s₁.setBuffer i p = s' := by simpa [hi, hclear] using hacquire
    have hsame : s₁.valueAt lib p = s.valueAt lib p := by
      cases p with
      | none => rfl
      | some a =>
        have hgiven := hp a rfl
        have hne : s.mBuffer i ≠ some a := fun hia => Bool.false_ne_true ((h.apart i a hia).symm.trans hgiven)
        exact congrArg (Option.map lib.entries) (hc.kept h (h.given a hgiven) hne)
    rw [setBuffer_value, hc.value h, hsame, update_idem]
    rfl

omit hd in
theorem swap_value (i j : ι) :
    ((s.setBuffer j (s.mBuffer i)).setBuffer i (s.mBuffer j)).value lib = s.value lib ∘ Equiv.swap i j := by
  rw [setBuffer_value, setBuffer_value, Equiv.comp_swap_eq_update]
  rfl

omit hd in
theorem acquireFrom_value (h : Sound s) (hacquire : s.acquireFrom i j = some s') :
    s'.value lib = if s.mLocked i then s.value lib
      else if s.mLocked j then update (s.value lib) i none
      else update (update (s.value lib) j none) i (s.value lib j) := by
  cases hi : s.mLocked i with
  | true =>
    obtain rfl : s = s' := by simpa [Sys.acquireFrom, hi] using hacquire
    rfl
  | false =>
    cases hj : s.mLocked j with
    | true =>
      obtain ⟨s₁, hacquire', hc⟩ := acquireFrom_locked h hi hj
      obtain rfl := Option.some.inj (hacquire'.symm.trans hacquire)
      exact hc.value h
    | false =>
      by_cases hij : i = j
      · subst hij
        obtain rfl := Option.some.inj ((acquireFrom_self hi).symm.trans hacquire)
        simp [update_idem, update_eq_self]
      · obtain ⟨s₁, hclear, hc, -⟩ := clear_change h hi
        obtain rfl := Option.some.inj ((acquireFrom_other h hi hj hij hclear).symm.trans hacquire)
        have hmoved : (s₁.setBuffer j none).valueAt lib (s.mBuffer j) = s.value lib j := by
          have hvalue : s₁.value lib j = s.value lib j := by rw [hc.value h, update_of_ne (Ne.symm hij)]
          rw [← hvalue, ← valueAt_slot, hc.others.1 j (Ne.symm hij)]
          rfl
        rw [setBuffer_value, setBuffer_value, hmoved, hc.value h, update_comm hij, update_idem]
        rfl

theorem update_value (h : Sound s) {type : EntryType} {tag : BitVec 32} {data : List δ} {p : Option Nat}
    (hp : ∀ a, p = some a → s.buffer a ≠ none) {st : Status}
    (hupdate : s.update lib mem i type tag data p = some (st, s')) :
    Guarded (s.mLocked i) (s.value lib) (.status st) (s'.value lib)
      (if lib.tag_type tag ≠ some type ∨ p.isSome ∧ p = s.mBuffer i then
        (.status st : Ret δ) = .status .INVALID_OPERATION ∧ s'.value lib = s.value lib
      else Gets mem (s.value lib) i (Put tag data ((s.value lib i).getD [])) .NO_MEMORY (.status st)
        (s'.value lib)) := by
  unfold Sys.update at hupdate
  cases hi : s.mLocked i with
  | true =>
    obtain ⟨rfl, rfl⟩ : .INVALID_OPERATION = st ∧ s = s' := by simpa [hi] using hupdate
    exact ⟨rfl, rfl⟩
  | false =>
    rw [Guarded, if_neg (by simp)]
    rw [if_neg (by simp [hi]), checkType_eq] at hupdate
    by_cases htype : lib.tag_type tag = some type
    · rw [if_pos htype, if_neg (not_not.mpr rfl)] at hupdate
      by_cases hown : p.isSome ∧ p = s.mBuffer i
      · rw [updateImpl_own htype hown] at hupdate
        obtain ⟨rfl, rfl⟩ := Prod.mk.inj (Option.some.inj hupdate)
        rw [if_pos (.inr hown)]
        exact ⟨rfl, rfl⟩
      · obtain ⟨st', s₁, hupdate', hspec⟩ := updateImpl_change mem h hi htype data hown hp
        obtain ⟨rfl, rfl⟩ := Prod.mk.inj (Option.some.inj (hupdate'.symm.trans hupdate))
        rw [if_neg (not_or.mpr ⟨not_not.mpr htype, hown⟩)]
        exact gets_of_grown h (put_value hd htype data (s.content i)) hspec
    · rw [if_neg htype, if_pos (by simp)] at hupdate
      obtain ⟨rfl, rfl⟩ := Prod.mk.inj (Option.some.inj hupdate)
      rw [if_pos (.inl htype)]
      exact ⟨rfl, rfl⟩

theorem sort_value (h : Sound s) {st : Status} (hsort : s.sort lib i = some (st, s')) :
    Guarded (s.mLocked i) (s.value lib) (.status st : Ret δ) (s'.value lib)
      (OnBuffer (s.value lib) i (.status st) (s'.value lib) fun v =>
        (.status st : Ret δ) = .status .OK ∧
          ∃ new, new.Perm v ∧ s'.value lib = update (s.value lib) i (some new)) := by
  unfold Sys.sort at hsort
  cases hi : s.mLocked i with
  | true =>
    obtain ⟨rfl, rfl⟩ : .INVALID_OPERATION = st ∧ s = s' := by simpa [hi] using hsort
    exact ⟨rfl, rfl⟩
  | false =>
    rw [Guarded, if_neg (by simp)]
    cases ha : s.mBuffer i with
    | none =>
      obtain ⟨rfl, rfl⟩ : .ERROR = st ∧ s = s' := by simpa [hi, ha] using hsort
      rw [OnBuffer, value_none ha]
      exact ⟨rfl, rfl⟩
    | some a =>
      obtain ⟨b, hb, hcontent⟩ := h.content_some ha
      obtain ⟨rfl, rfl⟩ : (lib.sort b).1 = st ∧ s.write a (lib.sort b).2 = s' := by simpa [hi, ha, hb] using hsort
      rw [OnBuffer, value_some hcontent]
      exact ⟨by rw [(hd.sort b).1], _, (hd.sort b).2, (Change.wrote _ ha).value h⟩

theorem erase_value (h : Sound s) {tag : BitVec 32} {st : Status} (herase : s.erase lib i tag = some (st, s')) :
    Guarded (s.mLocked i) (s.value lib) (.status st : Ret δ) (s'.value lib)
      (OnBuffer (s.value lib) i (.status st) (s'.value lib) fun v =>
        (.status st : Ret δ) = .status .OK ∧ ((∀ e ∈ v, e.1 ≠ tag) ∧ s'.value lib = s.value lib ∨
          ∃ k data, v[k]? = some (tag, data) ∧ s'.value lib = update (s.value lib) i (some (v.eraseIdx k)))) := by
  unfold Sys.erase at herase
  cases hi : s.mLocked i with
  | true =>
    obtain ⟨rfl, rfl⟩ : .INVALID_OPERATION = st ∧ s = s' := by simpa [hi] using herase
    exact ⟨rfl, rfl⟩
  | false =>
    rw [Guarded, if_neg (by simp)]
    cases ha : s.mBuffer i with
    | none =>
      obtain ⟨rfl, rfl⟩ : .ERROR = st ∧ s = s' := by simpa [hi, ha] using herase
      rw [OnBuffer, value_none ha]
      exact ⟨rfl, rfl⟩
    | some a =>
      obtain ⟨b, hb, hcontent⟩ := h.content_some ha
      rw [OnBuffer, value_some hcontent]
      cases hfind : lib.find b tag with
      | none =>
        obtain ⟨rfl, rfl⟩ : .OK = st ∧ s = s' := by simpa [hi, ha, hb, hfind] using herase
        exact ⟨rfl, .inl ⟨hd.find_none b tag hfind, rfl⟩⟩
      | some k =>
        obtain ⟨rfl, rfl⟩ : (lib.delete b k).1 = st ∧ s.write a (lib.delete b k).2 = s' := by
          simpa [hi, ha, hb, hfind] using herase
        obtain ⟨data, hdata⟩ := hd.find_some b tag k hfind
        obtain ⟨hok, hentries⟩ := hd.delete b k _ hdata
        refine ⟨by rw [hok], .inr ⟨k, data, hdata, ?_⟩⟩
        rw [(Change.wrote _ ha).value h, Option.map_some, hentries]

omit hd in
theorem readFromParcel_value (h : Sound s) {got : Except Status (Option β)} {st : Status}
    (hread : s.readFromParcel i got = some (st, s')) :
    Guarded (s.mLocked i) (s.value lib) (.status st : Ret δ) (s'.value lib)
      (Received lib (s.value lib) i (.status st) (s'.value lib) got) := by
  unfold Sys.readFromParcel at hread
  cases hi : s.mLocked i with
  | true =>
    obtain ⟨rfl, rfl⟩ : .INVALID_OPERATION = st ∧ s = s' := by simpa [hi] using hread
    exact ⟨rfl, rfl⟩
  | false =>
    rw [if_neg (by simp [hi])] at hread
    rw [Guarded, if_neg (by simp)]
    cases got with
    | error res =>
      obtain ⟨rfl, rfl⟩ := Prod.mk.inj (Option.some.inj hread)
      exact ⟨rfl, rfl⟩
    | ok got =>
      cases got with
      | none =>
        obtain ⟨s₁, hclear, hc, -⟩ := clear_change h hi
        obtain ⟨rfl, rfl⟩ : .OK = st ∧ s₁ = s' := by simpa [hclear] using hread
        exact ⟨rfl, hc.value h⟩
      | some b =>
        obtain ⟨s₁, hclear, hc⟩ := alloc_change h hi b
        obtain ⟨rfl, rfl⟩ : .OK = st ∧ s₁.setBuffer i (some s.next) = s' := by simpa [hclear] using hread
        exact ⟨rfl, hc.value h⟩

omit [DecidableEq ι] hd in
theorem give_value (h : Sound s) (b : β) : (s.alloc b).value lib = s.value lib := by
  funext k
  refine congrArg (Option.map lib.entries) ?_
  show (s.mBuffer k).bind (s.alloc b).buffer = (s.mBuffer k).bind s.buffer
  cases ha : s.mBuffer k with
  | none => rfl
  | some a => exact update_of_ne (h.lt_next (h.live k a ha)).ne _ _

omit [DecidableEq ι] hd in
theorem free_value (h : Sound s) (hgiven : s.client a = true) (hfree : s.free a = some s') :
    s'.value lib = s.value lib := by
  obtain ⟨b, -, rfl⟩ := Option.map_eq_some_iff.mp hfree
  funext k
  refine congrArg (Option.map lib.entries) ?_
  unfold Sys.content
  cases hk : s.mBuffer k with
  | none => rfl
  | some c =>
    have hne : c ≠ a := by
      rintro rfl
      exact Bool.false_ne_true ((h.apart k c hk).symm.trans hgiven)
    exact update_of_ne hne _ _

omit [DecidableEq ι] in
theorem find_value (h : Sound s) (i : ι) (tag : BitVec 32) :
    ∃ v, s.findConst lib i tag = some v ∧ Found (s.value lib i) tag v := by
  refine ⟨_, findConst_content h i tag, ?_⟩
  unfold Sys.value
  cases s.content i with
  | none => exact fun e he => absurd he List.not_mem_nil
  | some b => exact lookup_found hd b tag

theorem copy_value (h : Sound s) (hi : s.mBuffer i = none) {p : Option Nat}
    (hclone : s.clone lib mem (s.mBuffer j) = some (p, s')) :
    (s'.setBuffer i p).value lib = update (s.value lib) i (if mem then s.value lib j else none) := by
  unfold Sys.clone at hclone
  cases hj : s.mBuffer j with
  | none =>
    obtain ⟨rfl, rfl⟩ : none = p ∧ s = s' := by simpa [hj] using hclone
    rw [setBuffer_value, value_none hj, ite_self]
    rfl
  | some a =>
    obtain ⟨b, hb, hcontent⟩ := h.content_some hj
    have hvalue : s.value lib j = some (lib.entries (lib.clone b)) := by rw [value_some hcontent, hd.clone]
    cases mem with
    | false =>
      obtain ⟨rfl, rfl⟩ : none = p ∧ s = s' := by simpa [hj, hb] using hclone
      exact setBuffer_value none
    | true =>
      obtain ⟨rfl, rfl⟩ : some s.next = p ∧ s.alloc (lib.clone b) = s' := by simpa [hj, hb] using hclone
      rw [hvalue]
      exact (Change.filled (lib.clone b) hi).value h

/-- **Values.**  In every run a call answers, and changes the objects, as it would if each of
them held its list of entries itself. -/
theorem objects_as_values (hr : Run lib s) {o : Op ι β δ × Bool} (hok : ok s o = true) {r : Ret δ}
    (hnext : next lib s o = some (r, s')) : Answers lib s r (s'.value lib) o := by
  have h := sound_run hr
  obtain ⟨op, mem⟩ := o
  cases op with
  | construct i e d =>
    obtain ⟨hi, -⟩ : s.mBuffer i = none ∧ s.mLocked i = false := by simpa [ok] using hok
    obtain ⟨-, rfl⟩ := Prod.mk.inj (Option.some.inj hnext)
    cases mem with
    | false => exact setBuffer_value none
    | true =>
      refine ((Change.filled (lib.allocate e d) hi).value h).trans ?_
      rw [Option.map_some, (hd.allocate e d).1]
      rfl
  | copy i j =>
    obtain ⟨hi, -⟩ : s.mBuffer i = none ∧ s.mLocked i = false := by simpa [ok] using hok
    obtain ⟨⟨p, s₁⟩, hclone, hdone⟩ := Option.map_eq_some_iff.mp hnext
    obtain ⟨-, rfl⟩ := Prod.mk.inj hdone
    exact copy_value hd h hi hclone
  | destroy i =>
    obtain ⟨s₁, hdestroy, hdone⟩ := Option.map_eq_some_iff.mp hnext
    obtain ⟨-, rfl⟩ := Prod.mk.inj hdone
    refine (clear_value (lock_keeps h i false).sound hdestroy).trans ?_
    rw [if_neg (by simp)]
    rfl
  | assign i p =>
    obtain ⟨s₁, hassign, hdone⟩ := Option.map_eq_some_iff.mp hnext
    obtain ⟨-, rfl⟩ := Prod.mk.inj hdone
    exact assign_value hd h (live_of_all hok) hassign
  | assignFrom i j =>
    obtain ⟨s₁, hassign, hdone⟩ := Option.map_eq_some_iff.mp hnext
    obtain ⟨-, rfl⟩ := Prod.mk.inj hdone
    exact assign_value hd h (fun a => h.live j a) hassign
  | getAndLock i =>
    obtain ⟨rfl, rfl⟩ := Prod.mk.inj (Option.some.inj hnext)
    exact ⟨rfl, rfl⟩
  | unlock i p =>
    obtain ⟨rfl, rfl⟩ := Prod.mk.inj (Option.some.inj hnext)
    simp only [Answers, Sys.unlock, Bool.not_eq_true]
    by_cases hlocked : s.mLocked i = false
    · rw [if_pos hlocked, if_pos hlocked]
      exact ⟨rfl, rfl⟩
    · rw [if_neg hlocked, if_neg hlocked]
      by_cases hp : p ≠ s.mBuffer i
      · rw [if_pos hp, if_pos hp]
        exact ⟨rfl, rfl⟩
      · rw [if_neg hp, if_neg hp]
        exact ⟨rfl, rfl⟩
  | release i =>
    obtain ⟨rfl, rfl⟩ := Prod.mk.inj (Option.some.inj hnext)
    cases hi : s.mLocked i with
    | true =>
      simp only [Answers, Sys.release, hi, if_true]
      exact ⟨trivial, rfl⟩
    | false =>
      simp only [Answers, Sys.release, hi, Bool.false_eq_true, if_false]
      exact ⟨trivial, setBuffer_value none⟩
  | clear i =>
    obtain ⟨s₁, hclear, hdone⟩ := Option.map_eq_some_iff.mp hnext
    obtain ⟨-, rfl⟩ := Prod.mk.inj hdone
    exact clear_value h hclear
  | acquire i p =>
    obtain ⟨s₁, hacquire, hdone⟩ := Option.map_eq_some_iff.mp hnext
    obtain ⟨-, rfl⟩ := Prod.mk.inj hdone
    have hp : ∀ a, p = some a → s.client a = true := by
      rintro a rfl
      simpa [ok] using hok
    have hvalue : s₁.value lib = _ := acquire_value h hp hacquire
    show (if s.mLocked i = true then s₁ else s₁.setClient p false).value lib = ite _ _ _
    rw [← hvalue]
    split <;> rfl
  | acquireFrom i j =>
    obtain ⟨s₁, hacquire, hdone⟩ := Option.map_eq_some_iff.mp hnext
    obtain ⟨-, rfl⟩ := Prod.mk.inj hdone
    exact acquireFrom_value h hacquire
  | append i p =>
    obtain ⟨⟨st, s₁⟩, happend, hdone⟩ := Option.map_eq_some_iff.mp hnext
    obtain ⟨rfl, rfl⟩ := Prod.mk.inj hdone
    exact append_value hd h (live_of_all hok) happend
  | appendFrom i j =>
    obtain ⟨⟨st, s₁⟩, happend, hdone⟩ := Option.map_eq_some_iff.mp hnext
    obtain ⟨rfl, rfl⟩ := Prod.mk.inj hdone
    exact append_value hd h (fun a => h.live j a) happend
  | sort i =>
    obtain ⟨⟨st, s₁⟩, hsort, hdone⟩ := Option.map_eq_some_iff.mp hnext
    obtain ⟨rfl, rfl⟩ := Prod.mk.inj hdone
    exact sort_value hd h hsort
  | update i type tag data p =>
    obtain ⟨⟨st, s₁⟩, hupdate, hdone⟩ := Option.map_eq_some_iff.mp hnext
    obtain ⟨rfl, rfl⟩ := Prod.mk.inj hdone
    exact update_value hd h (live_of_all hok) hupdate
  | find i tag =>
    obtain ⟨v, hfind, hdone⟩ := Option.map_eq_some_iff.mp hnext
    obtain ⟨rfl, rfl⟩ := Prod.mk.inj hdone
    refine ⟨rfl, ?_⟩
    unfold Sys.find at hfind
    split
    case isTrue hi => rw [if_pos hi] at hfind; rw [Option.some.inj hfind]
    case isFalse hi =>
      rw [if_neg hi] at hfind
      obtain ⟨v', hfind', hfound⟩ := find_value hd h i tag
      obtain rfl := Option.some.inj (hfind'.symm.trans hfind)
      exact ⟨_, rfl, hfound⟩
  | findConst i tag =>
    obtain ⟨v, hfind, hdone⟩ := Option.map_eq_some_iff.mp hnext
    obtain ⟨rfl, rfl⟩ := Prod.mk.inj hdone
    obtain ⟨v', hfind', hfound⟩ := find_value hd h i tag
    obtain rfl := Option.some.inj (hfind'.symm.trans hfind)
    exact ⟨rfl, _, rfl, hfound⟩
  | entryCount i =>
    obtain ⟨n, hcount, hdone⟩ := Option.map_eq_some_iff.mp hnext
    obtain ⟨rfl, rfl⟩ := Prod.mk.inj hdone
    obtain rfl := Option.some.inj ((entryCount_content h i).symm.trans hcount)
    refine ⟨rfl, ?_⟩
    unfold Sys.value
    cases s.content i with
    | none => rfl
    | some b => exact congrArg Ret.count (hd.entry_count b)
  | erase i tag =>
    obtain ⟨⟨st, s₁⟩, herase, hdone⟩ := Option.map_eq_some_iff.mp hnext
    obtain ⟨rfl, rfl⟩ := Prod.mk.inj hdone
    exact erase_value hd h herase
  | readFromParcel i got =>
    obtain ⟨⟨st, s₁⟩, hread, hdone⟩ := Option.map_eq_some_iff.mp hnext
    obtain ⟨rfl, rfl⟩ := Prod.mk.inj hdone
    exact readFromParcel_value h hread
  | swap i j =>
    obtain ⟨-, rfl⟩ := Prod.mk.inj (Option.some.inj hnext)
    show (s.swap i j).value lib = _
    unfold Sys.swap
    by_cases hi : s.mLocked i = true
    · rw [if_pos hi, if_pos (.inl hi)]
    · rw [if_neg hi]
      by_cases hj : s.mLocked j = true
      · rw [if_pos hj, if_pos (.inr hj)]
      · rw [if_neg hj, if_neg (not_or.mpr ⟨hi, hj⟩)]
        exact swap_value i j
  | give b =>
    obtain ⟨-, rfl⟩ := Prod.mk.inj (Option.some.inj hnext)
    exact give_value h b
  | free a =>
    obtain ⟨s₁, hfree, hdone⟩ := Option.map_eq_some_iff.mp hnext
    obtain ⟨-, rfl⟩ := Prod.mk.inj hdone
    show s₁.value lib = s.value lib
    exact free_value h hok hfree

end

theorem sum_map_set {α : Type} (f : α → Nat) {l : List α} {k : Nat} {x : α} (hk : l[k]? = some x) (y : α) :
    ((l.set k y).map f).sum + f x = (l.map f).sum + f y := by
  induction l generalizing k with
  | nil => cases hk
  | cons z l ih =>
    cases k with
    | zero =>
      obtain rfl : z = x := by simpa using hk
      simp only [List.set_cons_zero, List.map_cons, List.sum_cons]
      omega
    | succ k =>
      have := ih (k := k) (by simpa using hk)
      simp only [List.set_cons_succ, List.map_cons, List.sum_cons]
      omega

theorem become_fits {b : Plain} {entries : List (Entry Nat)} (hcount : entries.length ≤ b.entryCapacity)
    (hdata : ({ b with entries } : Plain).dataCount ≤ b.dataCapacity) :
    b.become entries = (.OK, { b with entries }) := if_pos ⟨hcount, hdata⟩

theorem plain_documented : plain.Documented where
  entry_count _ := rfl
  data_count _ := rfl
  allocate _ _ := ⟨rfl, rfl, rfl⟩
  clone _ := rfl
  append dst src hcount hdata := by
    have hfits : dst.become (dst.entries ++ src.entries) =
        (.OK, { dst with entries := dst.entries ++ src.entries }) := by
      refine become_fits (by rw [List.length_append]; exact hcount) ?_
      simp only [Plain.dataCount, List.map_append, List.sum_append]
      exact hdata
    show (dst.become (dst.entries ++ src.entries)).1 = .OK ∧ _
    simp only [plain, hfits, true_and]
  find_none b tag hfind e he := by
    have := List.findIdx?_eq_none_iff.mp hfind e he
    simpa using this
  find_some b tag k hfind := by
    obtain ⟨hk, htag, -⟩ := List.findIdx?_eq_some_iff_getElem.mp hfind
    refine ⟨(b.entries[k]).2, ?_⟩
    show b.entries[k]? = _
    rw [List.getElem?_eq_getElem hk, ← of_decide_eq_true htag]
  add b e _ hcount hdata := by
    have hfits : b.become (b.entries ++ [e]) = (.OK, { b with entries := b.entries ++ [e] }) := by
      refine become_fits (by rw [List.length_append]; exact hcount) ?_
      simp only [Plain.dataCount, List.map_append, List.sum_append]
      exact hdata
    simp only [plain, hfits, true_and]
  update b k tag old data hk hdata := by
    have hset : b.entries.modify k (fun e => (e.1, data)) = b.entries.set k (tag, data) := by
      rw [List.modify_eq_set, show b.entries[k]? = some (tag, old) from hk]
      rfl
    have hsum : ({ b with entries := b.entries.set k (tag, data) } : Plain).dataCount + plain.entrySize (tag, old) =
        b.dataCount + plain.entrySize (tag, data) := sum_map_set plain.entrySize hk (tag, data)
    have hfits : ({ b with entries := b.entries.set k (tag, data) } : Plain).dataCount ≤ b.dataCapacity := by
      have : b.dataCount + plain.entrySize (tag, data) ≤ b.dataCapacity + plain.entrySize (tag, old) := hdata
      omega
    simp only [plain, hset, if_pos hfits, true_and]
  delete _ _ _ _ := ⟨rfl, rfl⟩
  sort _ := ⟨rfl, .refl _⟩

/-- The object grows for a second entry. -/
theorem objects_as_values_full :
    ∃ s', next plain full (.update () .INT32 2 [7] none, true) = some (.status .OK, s') ∧
    s'.value plain () = some [(1, [5]), (2, [7])] := by
  obtain ⟨s', hnext⟩ :
      ∃ s', next plain full (.update () .INT32 2 [7] none, true) = some (.status .OK, s') := ⟨_, rfl⟩
  refine ⟨s', hnext, ?_⟩
  have hgets : Gets true (full.value plain) () (Put 2 [7] [(1, [5])]) .NO_MEMORY (.status .OK) (s'.value plain) :=
    objects_as_values plain_documented run_full rfl hnext
  obtain ⟨-, new, hput, hvalue⟩ | ⟨hmem, -⟩ := hgets
  · rw [hvalue, update_self]
    obtain ⟨-, rfl⟩ | ⟨k, data, hk, -⟩ := hput
    · rfl
    · obtain ⟨hlt, heq⟩ := List.getElem?_eq_some_iff.mp hk
      obtain rfl : k = 0 := Nat.lt_one_iff.mp hlt
      cases heq
  · cases hmem

end MochaHal.Camera.Metadata
