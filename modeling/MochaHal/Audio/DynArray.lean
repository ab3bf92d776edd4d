import MochaHal.Lib.Realloc
import Mathlib.Tactic.Common
import Mathlib.Algebra.Group.Nat.Defs

/-! The arrays of `configmgr/audio_config.c` that grow.  `dyn_array_extend` takes memory
for 16 elements at a time and clears it, and `dyn_array_fix` gives back what is not used.
An array describes its memory after any calls as long as `realloc` frees nothing
(`dyn_array_iff`): an array without elements that is fixed twice keeps the pointer to the
block that the second `realloc` freed. -/

namespace MochaHal.Audio.Arrays
open MochaHal.Realloc

/-! ## The source -/

def ENOMEM : Int := 12
def DYN_ARRAY_GRANULE : BitVec 32 := 16

structure DynArray where
  count : BitVec 32
  max_count : BitVec 16
  elem_size : BitVec 16
  data : Ptr

/-- The code and the array; `none` where memory is used that may not be. -/
def dynArrayExtend (o : Answer) (array : DynArray) : Option (Int × DynArray) :=
  let elem_size := array.elem_size.setWidth 32
  let new_count := array.count + 1
  let max_count := array.max_count.setWidth 32
  if new_count > max_count then
    if max_count > 0xFFFF - DYN_ARRAY_GRANULE then some (-ENOMEM, array)
    else
      let old_size := max_count * elem_size
      let max_count := max_count + DYN_ARRAY_GRANULE
      let new_size := max_count * elem_size
      (realloc o array.data new_size.toNat).bind fun (p, data) =>
        if p.isNull then some (-ENOMEM, { array with data := data })
        else
          (p.memset old_size.toNat 0 (new_size - old_size).toNat).map fun p =>
            (0, { array with data := p, max_count := max_count.setWidth 16, count := new_count })
  else some (0, { array with count := new_count })

def dynArrayFix (o : Answer) (array : DynArray) : Option DynArray :=
  let size := array.count * array.elem_size.setWidth 32
  (realloc o array.data size.toNat).map fun (p, data) =>
    if p.isNull then { array with data := data }
    else { array with data := p, max_count := array.count.setWidth 16 }

/-- The array of a new object, which is zero but for the size of an element. -/
def fresh (elem_size : BitVec 16) : DynArray := ⟨0, 0, elem_size, .null⟩

/-! ## Runs -/

/-- The bytes of the elements. -/
def DynArray.used (a : DynArray) : Nat := a.count.toNat * a.elem_size.toNat

/-- What is done to an array: the two functions, and stores of its owner to the elements
that it has. -/
inductive Call
  | extend (o : Answer)
  | fix (o : Answer)
  | store (i : Nat) (v : BitVec 8)

def storeByte (i : Nat) (v : BitVec 8) (a : DynArray) : Option DynArray :=
  if i < a.used then (a.data.set i v).map fun data => { a with data := data } else some a

/-- The call returns a code, which is 0 for a function that returns none. -/
def step (a : DynArray) : Call → Option (Int × DynArray)
  | .extend o => dynArrayExtend o a
  | .fix o => (dynArrayFix o a).map fun a' => (0, a')
  | .store i v => (storeByte i v a).map fun a' => (0, a')

/-- The array describes its allocation. -/
structure Describes (a : DynArray) : Prop where
  count_le : a.count.toNat ≤ a.max_count.toNat
  max_le : a.max_count.toNat ≤ 65535
  no_wrap : (a.max_count.setWidth 32 * a.elem_size.setWidth 32).toNat = a.max_count.toNat * a.elem_size.toNat
  allocated : a.data.Holds (a.max_count.toNat * a.elem_size.toNat)

/-- What a call does to the elements. -/
def Keeps (a : DynArray) : Call → Int × DynArray → Prop
  | .extend _, (ret, a') =>
    (∀ i < a.used, a'.data.get i = a.data.get i) ∧
    (ret = 0 → a'.count.toNat = a.count.toNat + 1 ∧
      ∀ i, a.used ≤ i → i < a.used + a.elem_size.toNat → a'.data.get i = some 0) ∧
    (ret ≠ 0 → a' = a)
  | .fix _, (_, a') => a'.count = a.count ∧ ∀ i < a.used, a'.data.get i = a.data.get i
  | .store i _, (_, a') => a'.count = a.count ∧ ∀ j < a.used, j ≠ i → a'.data.get j = a.data.get j

/-- The calls have a meaning, keep the elements, and the array describes its allocation
before, between and after them. -/
def Sound (a : DynArray) : List Call → Prop
  | [] => Describes a
  | c :: calls => Describes a ∧ ∃ r, step a c = some r ∧ Keeps a c r ∧ Sound r.2 calls

/-- The call makes `realloc` free a block, when it is asked for no bytes of it. -/
def CallFrees (a : DynArray) : Call → Prop
  | .extend o => a.max_count.toNat ≤ a.count.toNat ∧ a.max_count.toNat + 16 ≤ 65535 ∧ Frees o a.data
      ((a.max_count.toNat + 16) * a.elem_size.toNat)
  | .fix o => Frees o a.data a.used
  | .store .. => False

/-- No call of a run frees a block. -/
def NoneFrees (a : DynArray) : List Call → Prop
  | [] => True
  | c :: calls => ¬ CallFrees a c ∧ ∀ r, step a c = some r → NoneFrees r.2 calls

/-! ## One call -/

/-- The array describes its allocation, and the elements to come are zero. -/
structure Clean (a : DynArray) : Prop extends Describes a where
  spare : ∀ i, a.used ≤ i → i < a.max_count.toNat * a.elem_size.toNat → a.data.get i = some 0

variable {o : Answer} {a : DynArray}

theorem size_lt (max es : BitVec 16) : max.toNat * es.toNat < 2 ^ 32 := by
  have hmax : max.toNat ≤ 65535 := by omega
  have hes : es.toNat ≤ 65535 := by omega
  have := Nat.mul_le_mul hmax hes
  omega

/-- The size of an allocation does not wrap. -/
theorem mul_no_wrap (max es : BitVec 16) : (max.setWidth 32 * es.setWidth 32).toNat = max.toNat * es.toNat := by
  rw [BitVec.toNat_mul, BitVec.toNat_setWidth_of_le (by decide), BitVec.toNat_setWidth_of_le (by decide),
    Nat.mod_eq_of_lt (size_lt _ _)]

theorem used_le (h : Describes a) : a.used ≤ a.max_count.toNat * a.elem_size.toNat :=
  Nat.mul_le_mul_right _ h.count_le

/-- The size that `dyn_array_fix` asks for. -/
theorem size_used (h : Describes a) : (a.count * a.elem_size.setWidth 32).toNat = a.used := by
  have hle := used_le h
  have hlt := size_lt a.max_count a.elem_size
  rw [DynArray.used] at hle
  rw [BitVec.toNat_mul, BitVec.toNat_setWidth_of_le (by decide), Nat.mod_eq_of_lt (by omega), DynArray.used]

theorem count_add_one (h : Describes a) : (a.count + 1).toNat = a.count.toNat + 1 := by
  have h1 := h.count_le
  have h2 := h.max_le
  rw [BitVec.toNat_add]
  simp only [BitVec.reduceToNat]
  omega

theorem max_add_granule (hmax : a.max_count.toNat + 16 ≤ 65535) :
    (a.max_count + 16).toNat = a.max_count.toNat + 16 := by
  rw [BitVec.toNat_add]
  simp only [BitVec.reduceToNat]
  omega

/-- The test for memory is that of the numbers. -/
theorem full_iff (h : Describes a) : a.count + 1 > a.max_count.setWidth 32 ↔ a.max_count.toNat ≤ a.count.toNat := by
  rw [gt_iff_lt, BitVec.lt_def, count_add_one h, BitVec.toNat_setWidth_of_le (by decide)]
  omega

/-- So is the one for the end of 16 bits. -/
theorem large_iff (a : DynArray) :
    a.max_count.setWidth 32 > 0xFFFF - DYN_ARRAY_GRANULE ↔ 65535 < a.max_count.toNat + 16 := by
  rw [gt_iff_lt, BitVec.lt_def, BitVec.toNat_setWidth_of_le (by decide)]
  simp only [DYN_ARRAY_GRANULE, BitVec.reduceSub, BitVec.reduceToNat]
  omega

theorem dynArrayExtend_room (h : Describes a) (hroom : a.count.toNat < a.max_count.toNat) :
    dynArrayExtend o a = some (0, { a with count := a.count + 1 }) := by
  have hnot : ¬ a.count + 1 > a.max_count.setWidth 32 := fun hfull => by
    have := (full_iff h).mp hfull
    omega
  simp only [dynArrayExtend, hnot, ↓reduceIte]

theorem dynArrayExtend_full (h : Describes a) (hroom : a.max_count.toNat ≤ a.count.toNat)
    (hmax : 65535 < a.max_count.toNat + 16) : dynArrayExtend o a = some (-ENOMEM, a) := by
  simp only [dynArrayExtend, (full_iff h).mpr hroom, (large_iff a).mpr hmax, ↓reduceIte]

/-- An extension that takes memory: the sizes are those without a wrap. -/
theorem dynArrayExtend_grow (h : Describes a) (hroom : a.max_count.toNat ≤ a.count.toNat)
    (hmax : a.max_count.toNat + 16 ≤ 65535) :
    dynArrayExtend o a =
      (realloc o a.data ((a.max_count.toNat + 16) * a.elem_size.toNat)).bind fun (p, data) =>
        if p.isNull then some (-ENOMEM, { a with data := data })
        else
          (p.memset (a.max_count.toNat * a.elem_size.toNat) 0 (16 * a.elem_size.toNat)).map fun p =>
            (0, { a with data := p, max_count := a.max_count + 16, count := a.count + 1 }) := by
  have hsmall : ¬ a.max_count.setWidth 32 > 0xFFFF - DYN_ARRAY_GRANULE := fun hlarge => by
    have := (large_iff a).mp hlarge
    omega
  have hadd := max_add_granule hmax
  have hwide : a.max_count.setWidth 32 + DYN_ARRAY_GRANULE = (a.max_count + 16).setWidth 32 := by
    apply BitVec.eq_of_toNat_eq
    rw [BitVec.toNat_add, BitVec.toNat_setWidth_of_le (by decide), BitVec.toNat_setWidth_of_le (by decide), hadd]
    simp only [DYN_ARRAY_GRANULE, BitVec.reduceToNat]
    omega
  have hnew : ((a.max_count.setWidth 32 + DYN_ARRAY_GRANULE) * a.elem_size.setWidth 32).toNat =
      (a.max_count.toNat + 16) * a.elem_size.toNat := by
    rw [hwide, mul_no_wrap, hadd]
  have htail : ((a.max_count.setWidth 32 + DYN_ARRAY_GRANULE) * a.elem_size.setWidth 32 -
      a.max_count.setWidth 32 * a.elem_size.setWidth 32).toNat = 16 * a.elem_size.toNat := by
    have hle : a.max_count.toNat * a.elem_size.toNat ≤ (a.max_count.toNat + 16) * a.elem_size.toNat :=
      Nat.mul_le_mul_right _ (by omega)
    rw [BitVec.toNat_sub_of_le (by rw [BitVec.le_def, hnew, h.no_wrap]; exact hle), hnew, h.no_wrap, Nat.add_mul]
    omega
  have hback : (a.max_count.setWidth 32 + DYN_ARRAY_GRANULE).setWidth 16 = a.max_count + 16 := by
    rw [hwide, BitVec.setWidth_setWidth_of_le _ (by decide), BitVec.setWidth_eq]
  simp only [dynArrayExtend, (full_iff h).mpr hroom, hsmall, hnew, htail, hback, h.no_wrap, ↓reduceIte]

/-- One element more. -/
theorem used_add_one (h : Describes a) : (a.count + 1).toNat * a.elem_size.toNat = a.used + a.elem_size.toNat := by
  rw [count_add_one h, Nat.add_mul, Nat.one_mul, DynArray.used]

/-- An element from the spare ones is zero already. -/
theorem extend_room_sound (h : Clean a) (hroom : a.count.toNat < a.max_count.toNat) :
    ∃ r, dynArrayExtend o a = some r ∧ Keeps a (.extend o) r ∧ Clean r.2 := by
  have hcount := count_add_one h.toDescribes
  have hused := used_add_one h.toDescribes
  have hle : a.used + a.elem_size.toNat ≤ a.max_count.toNat * a.elem_size.toNat :=
    hused ▸ Nat.mul_le_mul_right _ (by omega)
  refine ⟨_, dynArrayExtend_room h.toDescribes hroom, ⟨fun i _ => rfl, fun _ => ⟨hcount, ?_⟩, by simp⟩,
    ⟨⟨Nat.le_trans (Nat.le_of_eq hcount) hroom, h.max_le, h.no_wrap, h.allocated⟩, ?_⟩⟩
  · intro i hlow hhigh
    exact h.spare i hlow (by omega)
  · intro i hlow hhigh
    have hlow : (a.count + 1).toNat * a.elem_size.toNat ≤ i := hlow
    exact h.spare i (by omega) hhigh

/-- The memory that is taken is cleared from the old end on. -/
theorem extend_grow_sound (h : Clean a) (hroom : a.max_count.toNat ≤ a.count.toNat)
    (hmax : a.max_count.toNat + 16 ≤ 65535) (hfree : ¬ CallFrees a (.extend o)) :
    ∃ r, dynArrayExtend o a = some r ∧ Keeps a (.extend o) r ∧ Clean r.2 := by
  have hcount := count_add_one h.toDescribes
  have hused := used_add_one h.toDescribes
  have hadd := max_add_granule hmax
  have hgrow := @dynArrayExtend_grow o a h.toDescribes hroom hmax
  have hkept := @realloc_kept o a.data _ ((a.max_count.toNat + 16) * a.elem_size.toNat) h.allocated
    fun hfrees => hfree ⟨hroom, hmax, hfrees⟩
  have hfull : a.used = a.max_count.toNat * a.elem_size.toNat := by
    rw [DynArray.used, Nat.le_antisymm h.count_le hroom]
  have hsize : (a.max_count.toNat + 16) * a.elem_size.toNat = a.used + 16 * a.elem_size.toNat := by
    rw [Nat.add_mul, hfull]
  obtain hfail | ⟨mem, old, hmoved, hmem⟩ := hkept
  · rw [hfail] at hgrow
    exact ⟨_, hgrow, ⟨fun i _ => rfl, by simp [ENOMEM], fun _ => rfl⟩, h⟩
  · rw [hmoved, hsize, ← hfull] at hgrow
    simp only [Option.bind_some, Ptr.isNull, Ptr.memset, Nat.le_refl, Bool.false_eq_true, ↓reduceIte,
      Option.map_some] at hgrow
    rw [hsize, ← hfull] at hmem
    refine ⟨_, hgrow, ⟨?_, fun _ => ⟨hcount, ?_⟩, by simp⟩, ⟨⟨?_, ?_, ?_, ?_⟩, ?_⟩⟩
    · intro i hi
      have hbefore : ¬ (a.used ≤ i ∧ i < a.used + 16 * a.elem_size.toNat) := by omega
      rw [← hmem i hi (by omega)]
      simp only [Ptr.get, hbefore, ↓reduceIte]
    · intro i hlow hhigh
      have hin : i < a.used + 16 * a.elem_size.toNat := by omega
      simp only [Ptr.get, hin, hlow, and_self, ↓reduceIte]
    · have := h.count_le
      rw [hcount, hadd]
      omega
    · rw [hadd]
      omega
    · exact mul_no_wrap _ _
    · have : a.used + 16 * a.elem_size.toNat = (a.max_count + 16).toNat * a.elem_size.toNat := by rw [hadd, hsize]
      exact this
    · intro i hlow hhigh
      have hlow : (a.count + 1).toNat * a.elem_size.toNat ≤ i := hlow
      have hhigh : i < (a.max_count + 16).toNat * a.elem_size.toNat := hhigh
      rw [hadd, hsize] at hhigh
      have hused' : a.used ≤ i := by omega
      simp only [Ptr.get, hhigh, hused', and_self, ↓reduceIte]

theorem extend_sound (h : Clean a) (hfree : ¬ CallFrees a (.extend o)) :
    ∃ r, dynArrayExtend o a = some r ∧ Keeps a (.extend o) r ∧ Clean r.2 := by
  by_cases hroom : a.count.toNat < a.max_count.toNat
  · exact extend_room_sound h hroom
  by_cases hmax : 65535 < a.max_count.toNat + 16
  · exact ⟨_, dynArrayExtend_full h.toDescribes (by omega) hmax, ⟨fun i _ => rfl, by simp [ENOMEM], fun _ => rfl⟩, h⟩
  · exact extend_grow_sound h (by omega) (by omega) hfree

theorem fix_sound (h : Clean a) (hfree : ¬ CallFrees a (.fix o)) :
    ∃ a', dynArrayFix o a = some a' ∧ Keeps a (.fix o) (0, a') ∧ Clean a' := by
  have hle := used_le h.toDescribes
  have hcount := h.count_le
  have hmax := h.max_le
  have hsize := size_used h.toDescribes
  have hnarrow : (a.count.setWidth 16).toNat = a.count.toNat := by
    rw [BitVec.toNat_setWidth]
    omega
  obtain hfail | ⟨mem, old, hmoved, hmem⟩ := realloc_kept h.allocated hfree
  · exact ⟨a, by simp only [dynArrayFix, hsize, hfail]; rfl, ⟨rfl, fun i _ => rfl⟩, h⟩
  · refine ⟨{ a with data := .block a.used mem, max_count := a.count.setWidth 16 },
      by simp only [dynArrayFix, hsize, hmoved]; rfl, ⟨rfl, ?_⟩, ⟨⟨?_, ?_, ?_, ?_⟩, ?_⟩⟩
    · intro i hi
      exact hmem i (by omega) hi
    · exact Nat.le_of_eq hnarrow.symm
    · exact Nat.le_trans (Nat.le_of_eq hnarrow) (by omega)
    · exact mul_no_wrap _ _
    · have : a.used = (a.count.setWidth 16).toNat * a.elem_size.toNat := by rw [hnarrow, DynArray.used]
      exact this
    · intro i hlow hhigh
      have hhigh : i < (a.count.setWidth 16).toNat * a.elem_size.toNat := hhigh
      have hlow : a.count.toNat * a.elem_size.toNat ≤ i := hlow
      rw [hnarrow] at hhigh
      omega

theorem store_sound (h : Clean a) (i : Nat) (v : BitVec 8) :
    ∃ a', storeByte i v a = some a' ∧ Keeps a (.store i v) (0, a') ∧ Clean a' := by
  have hle := used_le h.toDescribes
  by_cases hi : i < a.used
  · obtain ⟨data, hset, hholds, hother⟩ := set_of_holds v h.allocated (Nat.lt_of_lt_of_le hi hle)
    refine ⟨{ a with data := data }, by simp only [storeByte, hi, hset, ↓reduceIte, Option.map_some],
      ⟨rfl, fun j _ => hother j⟩, ⟨⟨h.count_le, h.max_le, h.no_wrap, hholds⟩, ?_⟩⟩
    intro j hlow hhigh
    have hlow : a.used ≤ j := hlow
    exact (hother j (by omega)).trans (h.spare j hlow hhigh)
  · exact ⟨a, by simp only [storeByte, hi, ↓reduceIte], ⟨rfl, fun j _ _ => rfl⟩, h⟩

/-- **One call.** -/
theorem step_sound (h : Clean a) (c : Call) (hfree : ¬ CallFrees a c) :
    ∃ r, step a c = some r ∧ Keeps a c r ∧ Clean r.2 := by
  cases c with
  | extend o => exact extend_sound h hfree
  | fix o =>
    obtain ⟨a', hfix, hkeeps, hclean⟩ := fix_sound h hfree
    exact ⟨(0, a'), by simp only [step, hfix, Option.map_some], hkeeps, hclean⟩
  | store i v =>
    obtain ⟨a', hstore, hkeeps, hclean⟩ := store_sound h i v
    exact ⟨(0, a'), by simp only [step, hstore, Option.map_some], hkeeps, hclean⟩

/-- A call that frees leaves the array with a pointer to nothing. -/
theorem step_frees (h : Describes a) (c : Call) (hfree : CallFrees a c) :
    ∃ r, step a c = some r ∧ ¬ Describes r.2 := by
  cases c with
  | extend o =>
    obtain ⟨hroom, hmax, hfrees⟩ := hfree
    refine ⟨(-ENOMEM, { a with data := .dangling }), ?_, fun hd => hd.allocated⟩
    rw [step, dynArrayExtend_grow h hroom hmax, realloc_frees hfrees]
    rfl
  | fix o =>
    refine ⟨(0, { a with data := .dangling }), ?_, fun hd => hd.allocated⟩
    rw [step, dynArrayFix, size_used h, realloc_frees hfree]
    rfl
  | store i v => exact hfree.elim

/-! ## Runs of calls -/

theorem sound_of_noneFrees (calls : List Call) (h : Clean a) (hnone : NoneFrees a calls) : Sound a calls := by
  induction calls generalizing a with
  | nil => exact h.toDescribes
  | cons c calls ih =>
    obtain ⟨hfree, hrest⟩ := hnone
    obtain ⟨r, hstep, hkeeps, hclean⟩ := step_sound h c hfree
    exact ⟨h.toDescribes, r, hstep, hkeeps, ih hclean (hrest r hstep)⟩

theorem describes_of_sound (calls : List Call) (h : Sound a calls) : Describes a := by
  cases calls with
  | nil => exact h
  | cons c calls => exact h.1

theorem noneFrees_of_sound (calls : List Call) (h : Sound a calls) : NoneFrees a calls := by
  induction calls generalizing a with
  | nil => exact trivial
  | cons c calls ih =>
    obtain ⟨hdesc, r, hstep, _, hrest⟩ := h
    refine ⟨fun hfree => ?_, fun r' hstep' => ?_⟩
    · obtain ⟨r', hstep', hnot⟩ := step_frees hdesc c hfree
      rw [hstep, Option.some.injEq] at hstep'
      exact hnot (hstep' ▸ describes_of_sound calls hrest)
    · rw [hstep, Option.some.injEq] at hstep'
      exact hstep' ▸ ih hrest

theorem fresh_clean (es : BitVec 16) : Clean (fresh es) where
  count_le := Nat.le_refl _
  max_le := by simp [fresh]
  no_wrap := by simp [fresh]
  allocated := by simp [fresh, Ptr.Holds]
  spare i _ hi := by simp [fresh] at hi

/-- **Growing arrays.**  For every size of an element, an array stays in order through a
run of calls exactly when no call of it makes `realloc` free the block. -/
theorem dyn_array_iff (es : BitVec 16) (calls : List Call) : Sound (fresh es) calls ↔ NoneFrees (fresh es) calls :=
  ⟨noneFrees_of_sound calls, sound_of_noneFrees calls (fresh_clean es)⟩

/-- An array of controls that is fixed twice before it gets its first element. -/
theorem dyn_array_fixed_twice :
    ¬ ∀ (es : BitVec 16) (calls : List Call), Sound (fresh es) calls := by
  intro h
  obtain ⟨-, r, hfix, -, -, r', hfreed, -, hdesc⟩ := h 24 [.fix (.moved fun _ => 0), .fix .freed]
  obtain rfl : (0, _) = r := Option.some.inj hfix
  obtain rfl : (0, _) = r' := Option.some.inj hfreed
  exact hdesc.allocated

end MochaHal.Audio.Arrays
