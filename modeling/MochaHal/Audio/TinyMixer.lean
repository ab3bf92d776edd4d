import MochaHal.Audio.ByteArray
import MochaHal.Lib.Writes

/-! The controls of a mixer in `tinyalsa/src/mixer.c`.  The library reads and writes a
control through calls to the kernel, each of which may fail; a setter does at most one
read and one write.  `Wrote` says what a setter has written: all of some writes if
nothing fails, and a part of them otherwise.  What the configuration manager relies on for
arrays of bytes holds here (`arrayAccess_documented`). -/

namespace MochaHal.Audio.TinyMixer
open MochaHal.Audio.Parser MochaHal.Writes

/-! ## The source -/

def UINT_MAX : Nat := 4294967295
def SIZE_MAX : Nat := 4294967295
def TLV_HEADER_SIZE : Nat := 8

/-- `struct mixer_ctl`, with the kernel's info of the element: its type as
`mixer_ctl_get_type` names it, its items if it is enumerated, and whether it has access
`SNDRV_CTL_ELEM_ACCESS_TLV_READWRITE`. -/
structure Elem extends MixerCtl where
  name : String
  items : List String
  tlv : Bool

/-- `struct mixer`.  The kernel numbers the elements of a card from 1 on in the order in which
it lists them, and the library counts from 0: an id is an index. -/
structure Card where
  ctls : List Elem
  numbered : ∀ (n : Nat) (e : Elem), ctls[n]? = some e → e.id = n
  fits : ∀ e ∈ ctls, e.num_values < 2 ^ 32

def Card.mixer_get_ctl (card : Card) (id : Nat) : Option Elem := card.ctls[id]?

/-- The loop of `mixer_get_ctl_by_name_and_index`. -/
def byNameLoop (name : String) : Nat → List Elem → Option Elem
  | _, [] => none
  | index, e :: rest =>
    if name = e.name then
      match index with
      | 0 => some e
      | index + 1 => byNameLoop name index rest
    else byNameLoop name index rest

def Card.mixer_get_ctl_by_name_and_index (card : Card) (name : String) (index : Nat) : Option Elem :=
  byNameLoop name index card.ctls

def Card.mixer_get_ctl_by_name (card : Card) (name : String) : Option Elem :=
  card.mixer_get_ctl_by_name_and_index name 0

/-- What is outside the library and may fail in one of its calls: memory, reading and
writing the element, and the name of an item. -/
inductive Part
  | memory
  | read
  | write
  | item (m : Nat)

abbrev Failures := Part → Bool

/-- Nothing fails. -/
def Quiet (fails : Failures) : Prop := ∀ p, fails p = false

/-- A value of an element, by the id of the element and the index of the value. -/
abbrev Values := Nat × Nat → Int

abbrev Write := (Nat × Nat) × Int

/-- The values that the kernel has, and the elements whose item names the library has. -/
structure State where
  values : Values
  ename : Nat → Bool

variable (fails : Failures) (e : Elem)

/-- `SNDRV_CTL_IOCTL_ELEM_READ`; `none` is an error. -/
def elem_read (s : State) : Option (Nat → Int) :=
  if fails .read then none else some fun i => s.values (e.id, i)

/-- `SNDRV_CTL_IOCTL_ELEM_WRITE`, of so many values.  A driver that takes them stores them as
they are given, so that they are read back. -/
def elem_write (count : Nat) (ev : Nat → Int) (s : State) : Int × State :=
  if fails .write then (-1, s)
  else (0, { s with values := fun p => if p.1 = e.id ∧ p.2 < count then ev p.2 else s.values p })

/-- The switch of `mixer_ctl_set_value`: what is stored for a value, unless it is an error. -/
def stored (value : Int) : Option Int :=
  match e.type with
  | .bool => some (if value = 0 then 0 else 1)
  | .int => if value < e.range_min ∨ value > e.range_max then none else some value
  | .enum => some (value % 2 ^ 32)
  | .byte => some (value % 2 ^ 8)
  | .iec958 | .int64 | .unknown => none

def mixer_ctl_set_value (id : Nat) (value : Int) (s : State) : Int × State :=
  if id ≥ e.num_values then (-EINVAL, s)
  else
    match elem_read fails e s with
    | none => (-1, s)
    | some ev =>
      match stored e value with
      | none => (-EINVAL, s)
      | some v => elem_write fails e e.num_values (Function.update ev id v) s

/-- `mixer_ctl_get_array` of a control of bytes: the error code and what is in the array.
The bytes of a TLV are copied even if they could not be read. -/
def mixer_ctl_get_array (count : Nat) (s : State) : Int × List (BitVec 8) :=
  let bytes := (List.range count).map fun i => BitVec.ofInt 8 (s.values (e.id, i))
  if count = 0 ∨ count > e.num_values + (if e.tlv then TLV_HEADER_SIZE else 0) then (-EINVAL, [])
  else if e.tlv then
    if count > SIZE_MAX - TLV_HEADER_SIZE then (-EINVAL, [])
    else if fails .memory then (-ENOMEM, [])
    else if fails .read then (-1, List.replicate count 0)
    else (0, bytes)
  else if fails .read then (-1, [])
  else (0, bytes)

/-- `mixer_ctl_set_array` of a control of bytes; the values behind the array are zero. -/
def mixer_ctl_set_array (array : List (BitVec 8)) (s : State) : Int × State :=
  let count := array.length
  let data : Nat → Int := fun i => (array[i]?.getD 0).toNat
  if count = 0 ∨ count > e.num_values + (if e.tlv then TLV_HEADER_SIZE else 0) then (-EINVAL, s)
  else if e.tlv then
    if count > SIZE_MAX - TLV_HEADER_SIZE then (-EINVAL, s)
    else if fails .memory then (-ENOMEM, s)
    else elem_write fails e count data s
  else elem_write fails e e.num_values data s

/-- `mixer_ctl_fill_enum_string`, which has the names read once. -/
def mixer_ctl_fill_enum_string (s : State) : Int × State :=
  if s.ename e.id then (0, s)
  else if fails .memory then (-1, s)
  else if (List.range e.items.length).any fun m => fails (.item m) then (-1, s)
  else (0, { s with ename := Function.update s.ename e.id true })

/-- `mixer_ctl_set_enum_by_string`; the values behind the first become the first item. -/
def mixer_ctl_set_enum_by_string (string : String) (s : State) : Int × State :=
  if e.type ≠ .enum then (-EINVAL, s)
  else
    let filled := mixer_ctl_fill_enum_string fails e s
    if filled.1 ≠ 0 then (-EINVAL, filled.2)
    else
      match e.items.findIdx? (string = ·) with
      | none => (-EINVAL, filled.2)
      | some i => elem_write fails e e.num_values (fun n => if n = 0 then i else 0) filled.2

/-! ## What is written -/

/-- Some of the writes have been made, and all of them if nothing has failed. -/
structure Wrote (ws : List Write) (quiet : Prop) (s s' : State) : Prop where
  made : ∃ done : List Write, done.Sublist ws ∧ (quiet → done = ws) ∧ s'.values = store done s.values

/-- The values of controls of bytes are bytes. -/
def Bytes (card : Card) (values : Values) : Prop :=
  ∀ e ∈ card.ctls, e.type = .byte → ∀ i, 0 ≤ values (e.id, i) ∧ values (e.id, i) < 2 ^ 8

/-- The writes of all values of an element. -/
def allWrites (ev : Nat → Int) : List Write := (List.range e.num_values).map fun n => ((e.id, n), ev n)

/-- The writes of `mixer_ctl_set_value`. -/
def valueWrites (value : Int) (id : Nat) : List Write :=
  if id < e.num_values then ((stored e value).map fun v => ((e.id, id), v)).toList else []

/-- The writes of `mixer_ctl_set_enum_by_string`. -/
def enumWrites (string : String) : List Write :=
  match e.items.findIdx? (string = ·) with
  | none => []
  | some i => allWrites e fun n => if n = 0 then i else 0

variable {fails e} {card : Card} {s s' s'' : State} {ws ws' : List Write} {p q : Prop}

theorem Wrote.nothing (h : s'.values = s.values) : Wrote [] p s s' :=
  ⟨⟨[], .slnil, fun _ => rfl, h⟩⟩

theorem Wrote.stopped (hp : ¬ p) (h : s'.values = s.values) : Wrote ws p s s' :=
  ⟨⟨[], List.nil_sublist ws, fun h => absurd h hp, h⟩⟩

theorem Wrote.all (h : s'.values = store ws s.values) : Wrote ws p s s' :=
  ⟨⟨ws, .refl ws, fun _ => rfl, h⟩⟩

theorem Wrote.append (h : Wrote ws p s s') (h' : Wrote ws' p s' s'') : Wrote (ws ++ ws') p s s'' := by
  obtain ⟨done, hsub, hall, hvalues⟩ := h.made
  obtain ⟨done', hsub', hall', hvalues'⟩ := h'.made
  exact ⟨⟨done ++ done', hsub.append hsub', fun hp => by rw [hall hp, hall' hp],
    by rw [hvalues', hvalues, store_append]⟩⟩

/-- The writes behind those that were made were not even begun. -/
theorem Wrote.early (h : Wrote ws p s s') (hq : q → p ∧ ws' = []) : Wrote (ws ++ ws') q s s' := by
  obtain ⟨done, hsub, hall, hvalues⟩ := h.made
  refine ⟨⟨done, hsub.trans (List.sublist_append_left ws ws'), fun h => ?_, hvalues⟩⟩
  obtain ⟨hp, hnil⟩ := hq h
  rw [hall hp, hnil, List.append_nil]

theorem Wrote.weaken (h : Wrote ws p s s') (hq : q → p) : Wrote ws q s s' := by
  obtain ⟨done, hsub, hall, hvalues⟩ := h.made
  exact ⟨⟨done, hsub, fun h => hall (hq h), hvalues⟩⟩

/-! ## Reading and writing an element -/

theorem mem_allWrites {ev : Nat → Int} {k : Nat × Nat} :
    k ∈ (allWrites e ev).map Prod.fst ↔ k.1 = e.id ∧ k.2 < e.num_values := by
  obtain ⟨i, n⟩ := k
  simp only [allWrites, List.map_map, List.mem_map, List.mem_range, Function.comp_apply, Prod.mk.injEq]
  constructor
  · rintro ⟨m, hm, rfl, rfl⟩
    exact ⟨rfl, hm⟩
  · rintro ⟨rfl, hn⟩
    exact ⟨n, hn, rfl, rfl⟩

theorem store_allWrites (ev : Nat → Int) (m : Values) :
    store (allWrites e ev) m = fun k => if k.1 = e.id ∧ k.2 < e.num_values then ev k.2 else m k := by
  funext k
  have hall : ∀ w ∈ allWrites e ev, w.2 = ev w.1.2 := by
    intro w hw
    obtain ⟨n, -, rfl⟩ := List.mem_map.mp hw
    rfl
  rw [store_of_forall (f := fun k => ev k.2) hall]
  simp only [mem_allWrites]

theorem elem_write_wrote (ev : Nat → Int) :
    Wrote (allWrites e ev) (Quiet fails) s (elem_write fails e e.num_values ev s).2 := by
  unfold elem_write
  split
  case isTrue hfail => exact .stopped (fun h => by simp [h .write] at hfail) rfl
  case isFalse => exact .all (store_allWrites ev s.values).symm

theorem set_value_wrote (id : Nat) (value : Int) :
    Wrote (valueWrites e value id) (Quiet fails) s (mixer_ctl_set_value fails e id value s).2 := by
  unfold mixer_ctl_set_value valueWrites
  by_cases hid : id < e.num_values
  · rw [if_neg (show ¬ id ≥ e.num_values by omega), if_pos hid]
    unfold elem_read
    by_cases hread : fails .read
    · rw [if_pos hread]
      exact .stopped (fun h => by simp [h .read] at hread) rfl
    · rw [if_neg hread]
      cases hstored : stored e value with
      | none => exact .nothing rfl
      | some v =>
        unfold elem_write
        dsimp only
        split
        case isTrue hfail => exact .stopped (fun h => by simp [h .write] at hfail) rfl
        case isFalse =>
          refine .all (funext fun k => ?_)
          show (if k.1 = e.id ∧ k.2 < e.num_values then Function.update (fun i => s.values (e.id, i)) id v k.2
            else s.values k) = Function.update s.values (e.id, id) v k
          by_cases hk : k = (e.id, id)
          · subst hk
            rw [if_pos ⟨rfl, hid⟩, Function.update_self, Function.update_self]
          · rw [Function.update_of_ne hk]
            split
            case isTrue hin =>
              have hne : k.2 ≠ id := fun h => hk (Prod.ext hin.1 h)
              rw [Function.update_of_ne hne, ← hin.1]
            case isFalse => rfl
  · rw [if_pos (show id ≥ e.num_values by omega), if_neg hid]
    exact .nothing rfl

/-- Without failures it is the value that makes a call go wrong. -/
theorem set_value_ret (hq : Quiet fails) {id : Nat} (hid : id < e.num_values) (value : Int) :
    (mixer_ctl_set_value fails e id value s).1 < 0 ↔ stored e value = none := by
  unfold mixer_ctl_set_value elem_read elem_write
  rw [if_neg (by omega), hq .read, hq .write]
  cases stored e value with
  | none => exact iff_of_true (by show -EINVAL < 0; decide) rfl
  | some v => exact iff_of_false (by simp) (by simp)

variable (fails e) in
theorem fill_enum_string_values (s : State) : (mixer_ctl_fill_enum_string fails e s).2.values = s.values := by
  unfold mixer_ctl_fill_enum_string
  split_ifs <;> rfl

theorem fill_enum_string_ret (hq : Quiet fails) (s : State) : (mixer_ctl_fill_enum_string fails e s).1 = 0 := by
  unfold mixer_ctl_fill_enum_string
  have hitems : ((List.range e.items.length).any fun m => fails (.item m)) = false := by
    simp [hq _]
  rw [hitems, hq .memory]
  split_ifs <;> simp_all

theorem set_enum_wrote (htype : e.type = .enum) (string : String) :
    Wrote (enumWrites e string) (Quiet fails) s (mixer_ctl_set_enum_by_string fails e string s).2 := by
  unfold mixer_ctl_set_enum_by_string enumWrites
  have hvalues := fill_enum_string_values fails e s
  rw [if_neg (not_not.mpr htype)]
  dsimp only
  by_cases hret : (mixer_ctl_fill_enum_string fails e s).1 = 0
  · rw [if_neg (not_not.mpr hret)]
    cases e.items.findIdx? (string = ·) with
    | none => exact .nothing hvalues
    | some i => exact (Wrote.nothing hvalues).append (elem_write_wrote _)
  · rw [if_pos hret]
    exact .stopped (fun hq => hret (fill_enum_string_ret hq s)) hvalues

/-! ## Arrays of bytes -/

/-- The library, as the configuration manager uses it for a control of bytes. -/
def arrayAccess (fails : Failures) (e : Elem) : ByteCtl.ArrayAccess State where
  num_values _ := BitVec.ofNat 32 e.num_values
  content s := (List.range e.num_values).map fun i => BitVec.ofInt 8 (s.values (e.id, i))
  get_array s count := mixer_ctl_get_array fails e count s
  set_array s bytes := mixer_ctl_set_array fails e bytes s

/-- The values of an element that is given the bytes of an array. -/
def withBytes (e : Elem) (array : List (BitVec 8)) (values : Values) : Values := fun k =>
  if k.1 = e.id ∧ k.2 < e.num_values then ((array[k.2]?.getD 0).toNat : Int) else values k

variable (fails) in
theorem set_array_cases {array : List (BitVec 8)} (hlength : array.length = e.num_values) (s : State) :
    (mixer_ctl_set_array fails e array s).1 < 0 ∧ (mixer_ctl_set_array fails e array s).2 = s ∨
      (mixer_ctl_set_array fails e array s).1 = 0 ∧
        (mixer_ctl_set_array fails e array s).2.values = withBytes e array s.values := by
  unfold mixer_ctl_set_array elem_write
  dsimp only
  rw [hlength]
  split_ifs <;> first | exact .inr ⟨rfl, rfl⟩ | exact .inl ⟨by simp [EINVAL, ENOMEM], rfl⟩

theorem set_array_quiet (hq : Quiet fails) {array : List (BitVec 8)} (hlength : array.length = e.num_values)
    (hpos : 0 < e.num_values) (hsmall : e.num_values ≤ BYTE_ARRAY_MAX_SIZE) (s : State) :
    (mixer_ctl_set_array fails e array s).1 = 0 := by
  rw [BYTE_ARRAY_MAX_SIZE] at hsmall
  have hsize : ¬ e.num_values > SIZE_MAX - TLV_HEADER_SIZE := by
    rw [SIZE_MAX, TLV_HEADER_SIZE]
    omega
  unfold mixer_ctl_set_array elem_write
  dsimp only
  rw [hlength, if_neg (by omega), hq .memory, hq .write]
  simp [hsize]

theorem get_array_quiet (hq : Quiet fails) (hpos : 0 < e.num_values) (hsmall : e.num_values ≤ BYTE_ARRAY_MAX_SIZE)
    (s : State) : (mixer_ctl_get_array fails e e.num_values s).1 = 0 := by
  rw [BYTE_ARRAY_MAX_SIZE] at hsmall
  have hsize : ¬ e.num_values > SIZE_MAX - TLV_HEADER_SIZE := by
    rw [SIZE_MAX, TLV_HEADER_SIZE]
    omega
  unfold mixer_ctl_get_array
  dsimp only
  rw [if_neg (by omega), hq .memory, hq .read]
  simp [hsize]

variable (fails) in
theorem arrayAccess_documented (hfits : e.num_values < 2 ^ 32) : ByteCtl.Documented (arrayAccess fails e) where
  length s := by
    show ((List.range e.num_values).map _).length = (BitVec.ofNat 32 e.num_values).toNat
    rw [List.length_map, List.length_range, BitVec.toNat_ofNat, Nat.mod_eq_of_lt hfits]
  get_length s count := by
    show (mixer_ctl_get_array fails e count s).2.length ≤ count
    unfold mixer_ctl_get_array
    split_ifs <;> simp
  get s := by
    show 0 ≤ (mixer_ctl_get_array fails e (BitVec.ofNat 32 e.num_values).toNat s).1 →
      (mixer_ctl_get_array fails e (BitVec.ofNat 32 e.num_values).toNat s).2 = _
    rw [BitVec.toNat_ofNat, Nat.mod_eq_of_lt hfits]
    unfold mixer_ctl_get_array
    split_ifs <;> intro herr <;> first | rfl | simp [EINVAL, ENOMEM] at herr
  set s array hlength herr := by
    have hlength : array.length = e.num_values :=
      hlength.trans ((BitVec.toNat_ofNat _ _).trans (Nat.mod_eq_of_lt hfits))
    rcases set_array_cases fails hlength s with ⟨hneg, -⟩ | ⟨-, hvalues⟩
    · exact absurd herr (by show ¬ 0 ≤ (mixer_ctl_set_array fails e array s).1; omega)
    · show (List.range e.num_values).map (fun i =>
        BitVec.ofInt 8 ((mixer_ctl_set_array fails e array s).2.values (e.id, i))) = array
      refine List.ext_getElem (by simp [hlength]) fun i hi hi' => ?_
      have hin : withBytes e array s.values (e.id, i) = array[i].toNat := by
        rw [withBytes, if_pos ⟨rfl, hlength ▸ hi'⟩, List.getElem?_eq_getElem hi', Option.getD_some]
      rw [List.getElem_map, List.getElem_range, hvalues, hin]
      simp

/-- The writes of bytes from an index on. -/
def byteWrites (e : Elem) (index : Nat) (bytes : List (BitVec 8)) : List Write :=
  (bytes.zipIdx index).map fun b => ((e.id, b.2), (b.1.toNat : Int))

theorem mem_byteWrites {index : Nat} {bytes : List (BitVec 8)} {w : Write} :
    w ∈ byteWrites e index bytes ↔ w.1.1 = e.id ∧ index ≤ w.1.2 ∧ w.1.2 < index + bytes.length ∧
      w.2 = (bytes[w.1.2 - index]?.getD 0).toNat := by
  obtain ⟨⟨i, n⟩, v⟩ := w
  simp only [byteWrites, List.mem_map, Prod.exists, List.mem_zipIdx_iff_le_and_getElem?_sub, Prod.mk.injEq]
  constructor
  · rintro ⟨b, n, ⟨hle, hb⟩, ⟨rfl, rfl⟩, rfl⟩
    have hlt := (List.getElem?_eq_some_iff.mp hb).1
    exact ⟨rfl, hle, by omega, by rw [hb, Option.getD_some]⟩
  · rintro ⟨rfl, hle, hlt, rfl⟩
    have hin : n - index < bytes.length := by omega
    refine ⟨bytes[n - index], n, ⟨hle, List.getElem?_eq_getElem hin⟩, ⟨rfl, rfl⟩, ?_⟩
    rw [List.getElem?_eq_getElem hin, Option.getD_some]

theorem store_byteWrites (index : Nat) (bytes : List (BitVec 8)) (m : Values) :
    store (byteWrites e index bytes) m = fun k =>
      if k.1 = e.id ∧ index ≤ k.2 ∧ k.2 < index + bytes.length then
        ((bytes[k.2 - index]?.getD 0).toNat : Int)
      else m k := by
  funext k
  have hkeys : k ∈ (byteWrites e index bytes).map Prod.fst ↔
      k.1 = e.id ∧ index ≤ k.2 ∧ k.2 < index + bytes.length := by
    rw [List.mem_map]
    constructor
    · rintro ⟨w, hw, rfl⟩
      obtain ⟨hid, hle, hlt, -⟩ := mem_byteWrites.mp hw
      exact ⟨hid, hle, hlt⟩
    · intro hk
      exact ⟨(k, (bytes[k.2 - index]?.getD 0).toNat), mem_byteWrites.mpr ⟨hk.1, hk.2.1, hk.2.2, rfl⟩, rfl⟩
  rw [store_of_forall (f := fun k => ((bytes[k.2 - index]?.getD 0).toNat : Int))
    fun w hw => (mem_byteWrites.mp hw).2.2.2]
  simp only [hkeys]

theorem set_array_wrote {array : List (BitVec 8)} (hlength : array.length = e.num_values)
    (hsmall : e.num_values ≤ BYTE_ARRAY_MAX_SIZE) (hws : store ws s.values = withBytes e array s.values) :
    Wrote ws (Quiet fails) s (mixer_ctl_set_array fails e array s).2 := by
  rcases set_array_cases fails hlength s with ⟨hneg, hsame⟩ | ⟨-, hvalues⟩
  · rw [hsame]
    by_cases hpos : 0 < e.num_values
    · refine .stopped (fun hq => ?_) rfl
      have := set_array_quiet hq hlength hpos hsmall s
      omega
    · refine .all (hws.trans (funext fun k => ?_)).symm
      rw [withBytes, if_neg (by omega)]
  · exact .all (hvalues.trans hws.symm)

/-- An array that has the bytes of the element outside of those that are to be written. -/
theorem store_merged {index : Nat} {bytes array : List (BitVec 8)} (hwithin : index + bytes.length ≤ e.num_values)
    (hbytes : ∀ i, 0 ≤ s.values (e.id, i) ∧ s.values (e.id, i) < 2 ^ 8)
    (harray : ∀ j, array[j]? = if index ≤ j ∧ j < index + bytes.length then bytes[j - index]?
      else ((arrayAccess fails e).content s)[j]?) :
    store (byteWrites e index bytes) s.values = withBytes e array s.values := by
  rw [store_byteWrites]
  funext k
  unfold withBytes
  by_cases hk : k.1 = e.id ∧ k.2 < e.num_values
  · rw [if_pos hk, harray]
    split
    case isTrue hin => rw [if_pos hin.2]
    case isFalse hout =>
      obtain ⟨hlow, hhigh⟩ := hbytes k.2
      have hkey : k = (e.id, k.2) := Prod.ext hk.1 rfl
      have hget : ((arrayAccess fails e).content s)[k.2]? = some (BitVec.ofInt 8 (s.values (e.id, k.2))) := by
        simp [arrayAccess, hk.2]
      rw [if_neg (fun hin => hout ⟨hk.1, hin⟩), hget, Option.getD_some, BitVec.toNat_ofInt, ← hkey]
      rw [← hkey] at hlow hhigh
      omega
  · rw [if_neg hk, if_neg (fun hin => hk ⟨hin.1, by omega⟩)]

variable (fails) in
open MochaHal.Audio.ByteCtl in
/-- The bytes that were made from the text of a control are written, and nothing else. -/
theorem apply_bytes_wrote {str : CString} {c : PCtl} (h : Stored (BitVec.ofNat 32 e.num_values) str c)
    (hfits : e.num_values < 2 ^ 32) (hbytes : ∀ i, 0 ≤ s.values (e.id, i) ∧ s.values (e.id, i) < 2 ^ 8)
    (stack : Nat → BitVec 8) :
    ∃ bytes err s', bytes.map some = (Strtok.tokens ',' str.text).map tokenByte ∧
      applyByteArray (arrayAccess fails e) stack c s = some (err, s') ∧
      Wrote (byteWrites e c.index.toNat bytes) (Quiet fails) s s' := by
  obtain ⟨bytes, hvalue, hlength, htokens⟩ := h.bytes
  have hnum : (BitVec.ofNat 32 e.num_values).toNat = e.num_values := by
    rw [BitVec.toNat_ofNat, Nat.mod_eq_of_lt hfits]
  have hwithin := h.within
  have hsmall := h.small
  rw [hnum, ← hlength] at hwithin
  rw [hnum] at hsmall
  have hread : readBytes c.array_count.toNat bytes c.array_count.toNat = some bytes := by
    rw [readBytes, if_pos ⟨Nat.le_refl _, by omega⟩, List.take_of_length_le (by omega)]
  have hvnum : (arrayAccess fails e).num_values s = BitVec.ofNat 32 e.num_values := rfl
  have hget : (arrayAccess fails e).get_array s e.num_values = mixer_ctl_get_array fails e e.num_values s := rfl
  have hset : ∀ a, (arrayAccess fails e).set_array s a = mixer_ctl_set_array fails e a s := fun _ => rfl
  simp only [applyByteArray, hvalue, hread, hvnum, hnum, hget, hset]
  by_cases hwhole : c.index = 0 ∧ c.array_count = BitVec.ofNat 32 e.num_values
  · rw [if_pos hwhole]
    have hall : bytes.length = e.num_values := by rw [hlength, hwhole.2, hnum]
    refine ⟨bytes, _, _, htokens, rfl, set_array_wrote hall hsmall ?_⟩
    rw [store_byteWrites, hwhole.1]
    funext k
    simp [withBytes, hall]
  · rw [if_neg hwhole, if_neg (by omega)]
    by_cases herr : 0 ≤ (mixer_ctl_get_array fails e e.num_values s).1
    · have hcontent : ((arrayAccess fails e).content s).length = e.num_values := by simp [arrayAccess]
      have hgot : (mixer_ctl_get_array fails e e.num_values s).2 = (arrayAccess fails e).content s := by
        have hall := (arrayAccess_documented fails hfits).get s
        rw [hvnum, hnum, hget] at hall
        exact hall herr
      obtain ⟨ctl_data, hcopy, hsize, harray⟩ := @merge_spec ((arrayAccess fails e).content s) bytes c.index.toNat
        stack (by omega) (by omega)
      rw [hcontent] at hsize harray
      refine ⟨bytes, (mixer_ctl_set_array fails e (ctl_data.take e.num_values) s).1, _, htokens, ?_,
        set_array_wrote hsize hsmall (store_merged hwithin hbytes harray)⟩
      rw [if_pos herr, hgot, Option.bind_some, hcopy]
      rfl
    · refine ⟨bytes, _, s, htokens, if_neg herr, ?_⟩
      by_cases hpos : 0 < e.num_values
      · exact .stopped (fun hq => herr (get_array_quiet hq hpos hsmall s).ge) rfl
      · obtain rfl : bytes = [] := List.length_eq_zero_iff.mp (by omega)
        exact .nothing rfl

/-! ## Percentages -/

/-- An `int`. -/
def int32 (x : Int) : Int := x.bmod (2 ^ 32)

/-- `percent_to_int`, with the error code in the place of a value. -/
def percent_to_int (e : Elem) (percent : Int) : Int :=
  if percent > 100 ∨ percent < 0 then -EINVAL
  else
    let range := int32 (e.range_max - e.range_min)
    int32 (e.range_min + (int32 (range * percent)).tdiv 100)

def int_to_percent (e : Elem) (value : Int) : Int :=
  let range := int32 (e.range_max - e.range_min)
  if range = 0 then 0 else int32 ((int32 (value - e.range_min)).tdiv range * 100)

def mixer_ctl_get_value (fails : Failures) (e : Elem) (id : Nat) (s : State) : Int :=
  if id ≥ e.num_values then -EINVAL
  else
    match elem_read fails e s with
    | none => -1
    | some ev =>
      match e.type with
      | .bool => if ev id = 0 then 0 else 1
      | .int | .enum | .byte => ev id
      | .iec958 | .int64 | .unknown => -EINVAL

def mixer_ctl_get_percent (fails : Failures) (e : Elem) (id : Nat) (s : State) : Int :=
  if e.type ≠ .int then -EINVAL else int_to_percent e (mixer_ctl_get_value fails e id s)

def mixer_ctl_set_percent (fails : Failures) (e : Elem) (id : Nat) (percent : Int) (s : State) : Int × State :=
  if e.type ≠ .int then (-EINVAL, s) else mixer_ctl_set_value fails e id (percent_to_int e percent) s

/-- The range of a control, for which a percentage can be computed in an `int`. -/
structure Ranged (e : Elem) : Prop where
  order : e.range_min ≤ e.range_max
  min : -2 ^ 31 ≤ e.range_min
  max : e.range_max < 2 ^ 31
  small : (e.range_max - e.range_min) * 100 < 2 ^ 31

theorem int32_eq {x : Int} (hlow : -2 ^ 31 ≤ x) (hhigh : x < 2 ^ 31) : int32 x = x :=
  Int.bmod_eq_of_le (by omega) (by omega)

/-- Without a wrap. -/
theorem percent_to_int_eq (h : Ranged e) {percent : Int} (hp : 0 ≤ percent ∧ percent ≤ 100) :
    percent_to_int e percent = e.range_min + (e.range_max - e.range_min) * percent / 100 ∧
      0 ≤ (e.range_max - e.range_min) * percent / 100 ∧
      (e.range_max - e.range_min) * percent / 100 ≤ e.range_max - e.range_min := by
  obtain ⟨horder, hmin, hmax, hsmall⟩ := h
  have hlow : 0 ≤ (e.range_max - e.range_min) * percent := Int.mul_nonneg (by omega) hp.1
  have hhigh : (e.range_max - e.range_min) * percent ≤ (e.range_max - e.range_min) * 100 :=
    Int.mul_le_mul_of_nonneg_left hp.2 (by omega)
  have hrange : int32 (e.range_max - e.range_min) = e.range_max - e.range_min := int32_eq (by omega) (by omega)
  have hproduct : int32 ((e.range_max - e.range_min) * percent) = (e.range_max - e.range_min) * percent :=
    int32_eq (by omega) (by omega)
  unfold percent_to_int
  rw [if_neg (by omega)]
  dsimp only
  rw [hrange, hproduct, Int.tdiv_eq_ediv_of_nonneg hlow, int32_eq (by omega) (by omega)]
  omega

/-- What is read after a percentage was set. -/
theorem int_to_percent_of_percent (h : Ranged e) {percent : Int} (hp : 0 ≤ percent ∧ percent ≤ 100) :
    int_to_percent e (percent_to_int e percent) =
      if percent = 100 ∧ e.range_min < e.range_max then 100 else 0 := by
  obtain ⟨heq, hlow, hhigh⟩ := percent_to_int_eq h hp
  obtain ⟨horder, hmin, hmax, hsmall⟩ := h
  unfold int_to_percent
  dsimp only
  rw [heq, int32_eq (x := e.range_max - e.range_min) (by omega) (by omega), add_sub_cancel_left,
    int32_eq (x := (e.range_max - e.range_min) * percent / 100) (by omega) (by omega),
    Int.tdiv_eq_ediv_of_nonneg hlow]
  by_cases hempty : e.range_max - e.range_min = 0
  · rw [if_pos hempty, if_neg (by omega)]
  · rw [if_neg hempty]
    by_cases hfull : percent = 100
    · rw [hfull, if_pos ⟨rfl, by omega⟩, Int.mul_ediv_cancel _ (by decide), Int.ediv_self hempty]
      rfl
    · have hpart : (e.range_max - e.range_min) * percent < (e.range_max - e.range_min) * 100 :=
        Int.mul_lt_mul_of_pos_left (by omega) (by omega)
      rw [if_neg (by omega), Int.ediv_eq_zero_of_lt hlow (by omega)]
      rfl

theorem set_value_eq (hq : Quiet fails) {id : Nat} (hid : id < e.num_values) (value : Int) (s : State) :
    stored e value = none ∧ mixer_ctl_set_value fails e id value s = (-EINVAL, s) ∨
      ∃ v, stored e value = some v ∧ (mixer_ctl_set_value fails e id value s).1 = 0 ∧
        (mixer_ctl_set_value fails e id value s).2.values (e.id, id) = v := by
  unfold mixer_ctl_set_value elem_read elem_write
  rw [if_neg (show ¬ id ≥ e.num_values by omega), hq .read, hq .write]
  cases stored e value with
  | none => exact .inl ⟨rfl, rfl⟩
  | some v =>
    refine .inr ⟨v, rfl, rfl, ?_⟩
    show (if e.id = e.id ∧ id < e.num_values then Function.update (fun i => s.values (e.id, i)) id v id
      else s.values (e.id, id)) = v
    rw [if_pos ⟨rfl, hid⟩, Function.update_self]

theorem get_percent_eq (hq : Quiet fails) (htype : e.type = .int) {id : Nat} (hid : id < e.num_values) (s : State) :
    mixer_ctl_get_percent fails e id s = int_to_percent e (s.values (e.id, id)) := by
  unfold mixer_ctl_get_percent mixer_ctl_get_value elem_read
  rw [if_neg (not_not.mpr htype), if_neg (show ¬ id ≥ e.num_values by omega), hq .read]
  simp [htype]

/-- **Percentages.**  A percentage is read back as it was set at the ends of the range only,
and one that is none is set as the error code if the range has it. -/
theorem percent_kept_iff (hq : Quiet fails) (htype : e.type = .int) (h : Ranged e) {id : Nat}
    (hid : id < e.num_values) (percent : Int) (s : State) :
    let set := mixer_ctl_set_percent fails e id percent s
    (0 ≤ percent ∧ percent ≤ 100 → set.1 = 0 ∧
      (mixer_ctl_get_percent fails e id set.2 = percent ↔
        percent = 0 ∨ percent = 100 ∧ e.range_min < e.range_max)) ∧
    (¬ (0 ≤ percent ∧ percent ≤ 100) →
      (set.1 = 0 ↔ e.range_min ≤ -EINVAL ∧ -EINVAL ≤ e.range_max) ∧
      (set.1 = 0 → set.2.values (e.id, id) = -EINVAL)) := by
  have hset : mixer_ctl_set_percent fails e id percent s =
      mixer_ctl_set_value fails e id (percent_to_int e percent) s := if_neg (not_not.mpr htype)
  have hstored : stored e (percent_to_int e percent) =
      if percent_to_int e percent < e.range_min ∨ percent_to_int e percent > e.range_max then none
      else some (percent_to_int e percent) := by
    unfold stored
    rw [htype]
  intro set
  rw [show set = mixer_ctl_set_value fails e id (percent_to_int e percent) s from hset]
  constructor
  · intro hp
    obtain ⟨heq, hlow, hhigh⟩ := percent_to_int_eq h hp
    rw [if_neg (by omega)] at hstored
    rcases set_value_eq hq hid (percent_to_int e percent) s with ⟨hnone, -⟩ | ⟨v, hv, hret, hvalue⟩
    · rw [hnone] at hstored
      cases hstored
    · rw [hstored] at hv
      obtain rfl := Option.some.inj hv
      refine ⟨hret, ?_⟩
      rw [get_percent_eq hq htype hid, hvalue, int_to_percent_of_percent h hp]
      split <;> omega
  · intro hp
    have hcode : percent_to_int e percent = -EINVAL := if_pos (by omega)
    rw [hcode] at hstored ⊢
    rcases set_value_eq hq hid (-EINVAL) s with ⟨hnone, hret⟩ | ⟨v, hv, hret, hvalue⟩
    · rw [hnone] at hstored
      have hfailed : ¬ -EINVAL = 0 := by decide
      rw [hret]
      split at hstored
      case isTrue hout => exact ⟨iff_of_false hfailed (by omega), fun h => absurd h hfailed⟩
      case isFalse => cases hstored
    · rw [hv] at hstored
      split at hstored
      case isTrue => cases hstored
      case isFalse hin =>
        obtain rfl := Option.some.inj hstored
        exact ⟨iff_of_true hret (by omega), fun _ => hvalue⟩

def gain : Elem := ⟨⟨0, .int, 1, -50, 50⟩, "Gain", [], false⟩

def muted : State := ⟨fun _ => -50, fun _ => false⟩

theorem percent_kept_iff_gain :
    ¬ mixer_ctl_get_percent (fun _ => false) gain 0 (mixer_ctl_set_percent (fun _ => false) gain 0 60 muted).2 = 60 ∧
      (mixer_ctl_set_percent (fun _ => false) gain 0 101 muted).2.values (0, 0) = -22 := by
  have hgain : Ranged gain := ⟨by decide, by decide, by decide, by decide⟩
  have hsixty := (@percent_kept_iff (fun _ => false) gain (fun _ => rfl) rfl hgain 0 (by decide) 60 muted).1
    (by decide)
  have hnone := (@percent_kept_iff (fun _ => false) gain (fun _ => rfl) rfl hgain 0 (by decide) 101 muted).2
    (by decide)
  refine ⟨fun h => ?_, hnone.2 (hnone.1.mpr (by decide))⟩
  rcases hsixty.2.mp h with h | h <;> omega

end MochaHal.Audio.TinyMixer
