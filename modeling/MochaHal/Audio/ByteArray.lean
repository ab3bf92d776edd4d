import MochaHal.Lib.Strtok
import MochaHal.Audio.ConfigParser

/-! Controls that are arrays of bytes, in `configmgr/audio_config.c`.  `make_byte_array`
counts the tokens of the value, which takes the text apart, copies the text again and
stores a byte for each token.  `apply_ctls_l` puts the bytes into the control later.
`byte_array_safe` follows the bytes from the text to the control. -/

namespace MochaHal.Audio.ByteCtl
open MochaHal.Strtok MochaHal.Audio.Parser

/-! ## The source -/

/-- A string in memory.  A character stands for a byte. -/
structure CString where
  text : List Char
  no_nul : NUL ∉ text
  fits : text.length + 1 < 2 ^ 32

/-- `value` of a control: the text of the file, or what was made of it; an array has so
many bytes, and the first of them are known. -/
inductive Value
  | string (str : CString)
  | uinteger (v : BitVec 32)
  | data (size : Nat) (bytes : List (BitVec 8))

/-- `struct ctl`; a control that is not open has no id. -/
structure PCtl where
  id : Option Nat
  index : BitVec 32
  array_count : BitVec 32
  type : MixerCtlType
  value : Value

/-- What `make_byte_array` may free. -/
inductive Obj
  | copy
  | datablock
  | val_str
  deriving DecidableEq

/-- What a function returns, leaves of the control and frees. -/
structure Made where
  ret : Int
  c : PCtl
  freed : List Obj

/-- Whether there is memory for the copy of the text and for the array. -/
structure Memory where
  strdup : Bool
  malloc : Bool

/-- Why the loop that stores stops early: an error, or the end of the array. -/
inductive Halt
  | code (ret : Int)
  | overrun

def strcpy (buf text : List Char) : Option (List Char) :=
  if text.length + 1 ≤ buf.length then some (text ++ NUL :: buf.drop (text.length + 1)) else none

def countToken (count : BitVec 32) (_ : List Char) : Except Halt (BitVec 32) := .ok (count + 1)

/-- `*bytes++ = (uint8_t)v` for a token, in an array of `count` bytes. -/
def storeToken (count : Nat) (bytes : List (BitVec 8)) (p : List Char) : Except Halt (List (BitVec 8)) :=
  match stringToUint (String.ofList p) with
  | none => .error (.code (-EINVAL))
  | some v => if bytes.length < count then .ok (bytes ++ [v.setWidth 8]) else .error .overrun

/-- The end of `make_byte_array`, with the copy taken apart in `buf`. -/
def fillByteArray (c : PCtl) (val_str : CString) (count : BitVec 32) (buf : List Char) : Option Made :=
  (strcpy buf val_str.text).bind fun str =>
    (forTokens ',' (storeToken count.toNat) [] str).bind fun stored =>
      match stored.1 with
      | .error .overrun => none
      | .error (.code ret) => some ⟨ret, c, [.datablock, .copy]⟩
      | .ok bytes => some ⟨0, { c with value := .data count.toNat bytes }, [.copy, .val_str]⟩

/-- `none` where memory is used that may not be. -/
def makeByteArray (memory : Memory) (vnum : BitVec 32) (c : PCtl) : Option Made :=
  match c.value with
  | .string val_str =>
    if memory.strdup = false then some ⟨-ENOMEM, c, []⟩
    else if vnum.toNat > BYTE_ARRAY_MAX_SIZE then some ⟨-EINVAL, c, []⟩
    else if c.index ≥ vnum then some ⟨-EINVAL, c, [.copy]⟩
    else
      (forTokens ',' countToken 0 (val_str.text ++ [NUL])).bind fun counted =>
        match counted.1 with
        | .error _ => none
        | .ok count =>
          if c.index + count > vnum then some ⟨-EINVAL, c, [.copy]⟩
          else
            let c := { c with array_count := count }
            if memory.malloc = false then some ⟨-ENOMEM, c, [.copy]⟩
            else fillByteArray c val_str count counted.2.buf
  | _ => none

/-- `ctl_open`, with what the mixer finds under the name. -/
def ctlOpen (memory : Memory) (found : Option MixerCtl) (pctl : PCtl) : Option Made :=
  match pctl.id, found with
  | some _, _ => some ⟨0, pctl, []⟩
  | none, none => some ⟨-ENOENT, pctl, []⟩
  | none, some ctl =>
    match ctl.type with
    | .byte =>
      let pctl := if pctl.index = INVALID_CTL_INDEX then { pctl with index := 0 } else pctl
      (makeByteArray memory (BitVec.ofNat 32 ctl.num_values) pctl).map fun m =>
        if m.ret ≠ 0 then m else { m with c := { m.c with type := ctl.type, id := some ctl.id } }
    | .bool | .int =>
      match pctl.value with
      | .string val_str =>
        match stringToUint (String.ofList val_str.text) with
        | none => some ⟨-EINVAL, pctl, []⟩
        | some v => some ⟨0, { pctl with value := .uinteger v, type := ctl.type, id := some ctl.id }, [.val_str]⟩
      | _ => none
    | .enum => some ⟨0, { pctl with type := ctl.type, id := some ctl.id }, []⟩
    | .iec958 | .int64 | .unknown => some ⟨-EINVAL, pctl, []⟩

/-! ## The mixer -/

/-- What the mixer's library does with the array of a control: its error code, and what is
read or left. -/
structure ArrayAccess (σ : Type) where
  num_values : σ → BitVec 32
  content : σ → List (BitVec 8)
  get_array : σ → Nat → Int × List (BitVec 8)
  set_array : σ → List (BitVec 8) → Int × σ

/-- As its documentation says: a control has so many values, all of them are read into the
array that is passed, and all of them are set from it. -/
structure Documented {σ : Type} (t : ArrayAccess σ) : Prop where
  length : ∀ s, (t.content s).length = (t.num_values s).toNat
  get_length : ∀ s count, (t.get_array s count).2.length ≤ count
  get : ∀ s, 0 ≤ (t.get_array s (t.num_values s).toNat).1 → (t.get_array s (t.num_values s).toNat).2 = t.content s
  set : ∀ s bytes, bytes.length = (t.num_values s).toNat → 0 ≤ (t.set_array s bytes).1 →
    t.content (t.set_array s bytes).2 = bytes

/-- `memcpy` into an array at an offset. -/
def memcpy (dst : List (BitVec 8)) (offset : Nat) (src : List (BitVec 8)) : Option (List (BitVec 8)) :=
  if offset + src.length ≤ dst.length then some (dst.take offset ++ src ++ dst.drop (offset + src.length)) else none

/-- The bytes of an array that are read, as far as they are there and known. -/
def readBytes (size : Nat) (bytes : List (BitVec 8)) (count : Nat) : Option (List (BitVec 8)) :=
  if count ≤ size ∧ count ≤ bytes.length then some (bytes.take count) else none

/-- An array of bytes in `apply_ctls_l`; `stack` is what `ctl_data` holds at first. -/
def applyByteArray {σ : Type} (t : ArrayAccess σ) (stack : Nat → BitVec 8) (pctl : PCtl) (s : σ) : Option (Int × σ) :=
  let ctl_data := (List.range BYTE_ARRAY_MAX_SIZE).map stack
  let vnum := t.num_values s
  match pctl.value with
  | .data size bytes =>
    if pctl.index = 0 ∧ pctl.array_count = vnum then
      (readBytes size bytes pctl.array_count.toNat).map fun array => t.set_array s array
    else if vnum.toNat > BYTE_ARRAY_MAX_SIZE then none
    else
      let got := t.get_array s vnum.toNat
      let ctl_data := got.2 ++ ctl_data.drop got.2.length
      if got.1 ≥ 0 then
        (readBytes size bytes pctl.array_count.toNat).bind fun src =>
          (memcpy ctl_data pctl.index.toNat src).map fun ctl_data => t.set_array s (ctl_data.take vnum.toNat)
      else some (got.1, s)
  | _ => none

/-! ## The two loops -/

/-- The byte of a token: its number modulo 256. -/
def tokenByte (p : List Char) : Option (BitVec 8) := (stringToUint (String.ofList p)).map (BitVec.setWidth 8)

theorem countToken_fold (ps : List (List Char)) (count : BitVec 32) :
    ps.foldlM countToken count = .ok (count + BitVec.ofNat 32 ps.length) := by
  induction ps generalizing count with
  | nil => simp [pure, Except.pure]
  | cons p ps ih =>
    have hstep : (p :: ps).foldlM countToken count = ps.foldlM countToken (count + 1) := rfl
    rw [hstep, ih, List.length_cons, Nat.add_comm, BitVec.ofNat_add, BitVec.add_assoc]
    rfl

theorem countToken_all (ps : List (List Char)) : ps.foldlM countToken 0 = .ok (BitVec.ofNat 32 ps.length) :=
  (countToken_fold ps 0).trans (congrArg Except.ok (BitVec.zero_add _))

/-- The tokens that were counted fit, so the loop ends at a bad number or stores them all. -/
theorem storeToken_fold (ps : List (List Char)) (count : Nat) (bytes : List (BitVec 8))
    (hfit : bytes.length + ps.length ≤ count) :
    ps.foldlM (storeToken count) bytes = .error (.code (-EINVAL)) ∧
      ¬ (∀ p ∈ ps, (stringToUint (String.ofList p)).isSome) ∨
    ∃ more, ps.foldlM (storeToken count) bytes = .ok (bytes ++ more) ∧ more.map some = ps.map tokenByte := by
  induction ps generalizing bytes with
  | nil => exact .inr ⟨[], by rw [List.append_nil]; rfl, rfl⟩
  | cons p ps ih =>
    rw [List.length_cons] at hfit
    cases hv : stringToUint (String.ofList p) with
    | none =>
      left
      have hstep : storeToken count bytes p = .error (.code (-EINVAL)) := by simp only [storeToken, hv]
      rw [List.foldlM_cons, hstep]
      exact ⟨rfl, fun h => by simpa [hv] using h p List.mem_cons_self⟩
    | some v =>
      have hstep : storeToken count bytes p = .ok (bytes ++ [v.setWidth 8]) := by
        simp only [storeToken, hv, show bytes.length < count by omega, ↓reduceIte]
      have hfold : (p :: ps).foldlM (storeToken count) bytes =
          ps.foldlM (storeToken count) (bytes ++ [v.setWidth 8]) := by
        rw [List.foldlM_cons, hstep]
        rfl
      rw [hfold]
      rcases ih (bytes ++ [v.setWidth 8]) (by simp; omega) with ⟨hbad, hnone⟩ | ⟨more, hmore, hbytes⟩
      · exact .inl ⟨hbad, fun h => hnone fun q hq => h q (List.mem_cons_of_mem p hq)⟩
      · refine .inr ⟨v.setWidth 8 :: more, by rw [hmore, List.append_assoc]; rfl, ?_⟩
        simp only [List.map_cons, hbytes, tokenByte, hv, Option.map_some]

/-! ## What is stored -/

/-- The bytes of the tokens are stored, and they fit into the control. -/
structure Stored (vnum : BitVec 32) (str : CString) (c : PCtl) : Prop where
  within : c.index.toNat + c.array_count.toNat ≤ vnum.toNat
  small : vnum.toNat ≤ BYTE_ARRAY_MAX_SIZE
  bytes : ∃ bytes, c.value = .data c.array_count.toNat bytes ∧ bytes.length = c.array_count.toNat ∧
    bytes.map some = (Strtok.tokens ',' str.text).map tokenByte

/-- The text of the control is still there. -/
structure Kept (str : CString) (m : Made) : Prop where
  value : m.c.value = .string str
  owned : Obj.val_str ∉ m.freed

variable {memory : Memory} {vnum : BitVec 32} {c : PCtl} {str : CString}

theorem count_fits (str : CString) : (Strtok.tokens ',' str.text).length < 2 ^ 31 := by
  have hhalf := @length_tokens_le ',' str.text (by decide) str.no_nul
  have := str.fits
  omega

/-- The count of the tokens does not wrap. -/
theorem toNat_count (str : CString) :
    (BitVec.ofNat 32 (Strtok.tokens ',' str.text).length).toNat = (Strtok.tokens ',' str.text).length := by
  have := count_fits str
  rw [BitVec.toNat_ofNat, Nat.mod_eq_of_lt (by omega)]

theorem fillByteArray_spec {count : BitVec 32} {buf : List Char} (hbuf : buf.length = str.text.length + 1)
    (hcount : count.toNat = (Strtok.tokens ',' str.text).length) :
    fillByteArray c str count buf = some ⟨-EINVAL, c, [.datablock, .copy]⟩ ∧
      ¬ (∀ p ∈ Strtok.tokens ',' str.text, (stringToUint (String.ofList p)).isSome) ∨
    ∃ bytes, fillByteArray c str count buf = some ⟨0, { c with value := .data count.toNat bytes }, [.copy, .val_str]⟩ ∧
      bytes.length = count.toNat ∧ bytes.map some = (Strtok.tokens ',' str.text).map tokenByte := by
  have hcopy : strcpy buf str.text = some (str.text ++ NUL :: buf.drop (str.text.length + 1)) :=
    if_pos (by omega)
  obtain ⟨s, hloop⟩ := @forTokens_eq _ _ ',' str.text (buf.drop (str.text.length + 1)) (storeToken count.toNat)
    (by decide) str.no_nul []
  rcases storeToken_fold (Strtok.tokens ',' str.text) count.toNat [] (by rw [hcount]; simp) with
    ⟨hbad, hnone⟩ | ⟨bytes, hok, hbytes⟩
  · left
    rw [fillByteArray, hcopy, Option.bind_some, hloop, hbad]
    exact ⟨rfl, hnone⟩
  · right
    refine ⟨bytes, by rw [fillByteArray, hcopy, Option.bind_some, hloop, hok]; rfl, ?_, hbytes⟩
    have := congrArg List.length hbytes
    rw [List.length_map, List.length_map] at this
    rw [this, hcount]

/-- `make_byte_array` uses no memory it may not use.  It stores the bytes or keeps the text. -/
theorem makeByteArray_spec (hstr : c.value = .string str) :
    ∃ m, makeByteArray memory vnum c = some m ∧ (m.ret = 0 → Stored vnum str m.c ∧ m.c.index = c.index) ∧
      (m.ret ≠ 0 → Kept str m) := by
  simp only [makeByteArray, hstr]
  split
  case isTrue => exact ⟨_, rfl, fun h => (by cases h), fun _ => ⟨hstr, List.not_mem_nil⟩⟩
  split
  case isTrue => exact ⟨_, rfl, fun h => (by cases h), fun _ => ⟨hstr, List.not_mem_nil⟩⟩
  split
  case isTrue => exact ⟨_, rfl, fun h => (by cases h), fun _ => ⟨hstr, by simp⟩⟩
  case isFalse hsmall hindex =>
    obtain ⟨s, hloop⟩ := @forTokens_eq _ _ ',' str.text [] countToken (by decide) str.no_nul (0 : BitVec 32)
    have hbuf := forTokens_length hloop
    rw [countToken_all] at hloop
    simp only [hloop, Option.bind_some]
    split
    case isTrue => exact ⟨_, rfl, fun h => (by cases h), fun _ => ⟨hstr, by simp⟩⟩
    case isFalse hfits =>
    split
    case isTrue => exact ⟨_, rfl, fun h => (by cases h), fun _ => ⟨rfl, by simp⟩⟩
    case isFalse =>
      have hlength := count_fits str
      have hcount := toNat_count str
      rcases fillByteArray_spec (by simpa using hbuf) hcount with ⟨hbad, -⟩ | ⟨bytes, hok, hbytes, hvalues⟩
      · exact ⟨_, hbad, fun h => (by cases h), fun _ => ⟨rfl, by simp⟩⟩
      · refine ⟨_, hok, fun _ => ⟨⟨?_, by omega, bytes, rfl, hbytes, hvalues⟩, rfl⟩, fun h => absurd rfl h⟩
        have hle : (c.index + (BitVec.ofNat 32 (Strtok.tokens ',' str.text).length)).toNat ≤ vnum.toNat := by
          rw [gt_iff_lt, BitVec.lt_def] at hfits
          omega
        have hlow : c.index.toNat < vnum.toNat := by
          rw [ge_iff_le, BitVec.le_def] at hindex
          omega
        have hsmall : vnum.toNat ≤ 512 := by
          rw [BYTE_ARRAY_MAX_SIZE] at hsmall
          omega
        rw [BitVec.toNat_add, hcount] at hle
        dsimp only
        rw [hcount]
        omega

/-- With memory left, the code is the one that the parser's model has for a control. -/
theorem makeByteArray_ret (hstr : c.value = .string str) (name : String) (ctl : MixerCtl)
    (hnum : ctl.num_values < 2 ^ 32) :
    ∃ m, makeByteArray ⟨true, true⟩ (BitVec.ofNat 32 ctl.num_values) c = some m ∧
      m.ret = Parser.makeByteArray ⟨name, c.index, String.ofList str.text⟩ ctl := by
  have hvnum : (BitVec.ofNat 32 ctl.num_values).toNat = ctl.num_values := by
    rw [BitVec.toNat_ofNat, Nat.mod_eq_of_lt hnum]
  have htokens : Parser.tokens ',' str.text = Strtok.tokens ',' str.text := (tokens_eq_splitBy ',' str.text).symm
  have hlength := count_fits str
  have hcount := toNat_count str
  obtain ⟨s, hloop⟩ := @forTokens_eq _ _ ',' str.text [] countToken (by decide) str.no_nul (0 : BitVec 32)
  have hbuf := forTokens_length hloop
  rw [countToken_all] at hloop
  simp only [makeByteArray, Parser.makeByteArray, hstr, hloop, hvnum, String.toList_ofList, htokens, Option.bind_some,
    Bool.true_eq_false, ↓reduceIte, ge_iff_le, gt_iff_lt, BitVec.le_def, BitVec.lt_def, BitVec.toNat_add, hcount]
  split
  case isTrue => exact ⟨_, rfl, rfl⟩
  split
  case isTrue => exact ⟨_, rfl, rfl⟩
  case isFalse hsmall hindex =>
    rw [BYTE_ARRAY_MAX_SIZE] at hsmall
    rw [Nat.mod_eq_of_lt (by omega)]
    split
    case isTrue => exact ⟨_, rfl, rfl⟩
    case isFalse =>
      rcases @fillByteArray_spec { c with array_count := BitVec.ofNat 32 (Strtok.tokens ',' str.text).length } str _
        s.buf (by simpa using hbuf) hcount with ⟨hbad, hnone⟩ | ⟨bytes, hok, -, hvalues⟩
      · rw [hstr] at hbad
        exact ⟨_, hbad, (if_neg hnone).symm⟩
      · rw [hstr] at hok
        refine ⟨_, hok, (if_pos fun p hp => ?_).symm⟩
        have hbyte : tokenByte p ∈ bytes.map some := hvalues ▸ List.mem_map_of_mem hp
        obtain ⟨b, -, hb⟩ := List.mem_map.mp hbyte
        rw [tokenByte] at hb
        cases hv : stringToUint (String.ofList p) with
        | none =>
          rw [hv] at hb
          cases hb
        | some v => rfl

/-- `ctl_open` of any control uses no memory it may not use; an error leaves the text. -/
theorem ctlOpen_spec (found : Option MixerCtl) (hid : c.id = none) (hstr : c.value = .string str) :
    ∃ m, ctlOpen memory found c = some m ∧ (m.ret ≠ 0 → Kept str m) ∧
      (m.ret = 0 → ∀ ctl, found = some ctl → ctl.type = .byte → Stored (BitVec.ofNat 32 ctl.num_values) str m.c) := by
  cases found with
  | none =>
    simp only [ctlOpen, hid]
    exact ⟨_, rfl, fun _ => ⟨hstr, List.not_mem_nil⟩, fun h => (by cases h)⟩
  | some ctl =>
    simp only [ctlOpen, hid]
    cases htype : ctl.type with
    | byte =>
      obtain ⟨m, hm, hstored, hkept⟩ := @makeByteArray_spec memory (BitVec.ofNat 32 ctl.num_values)
        (if c.index = INVALID_CTL_INDEX then { c with index := 0 } else c) str (by split <;> exact hstr)
      rw [hid] at hm
      simp only [hm, Option.map_some]
      by_cases hret : m.ret = 0
      · rw [if_neg (not_not.mpr hret)]
        refine ⟨_, rfl, fun h => absurd hret h, ?_⟩
        rintro - ctl' hfound -
        obtain rfl := Option.some.inj hfound
        obtain ⟨h, -⟩ := hstored hret
        exact ⟨h.within, h.small, h.bytes⟩
      · rw [if_pos hret]
        exact ⟨_, rfl, hkept, fun h => absurd h hret⟩
    | bool | int =>
      simp only [hstr]
      cases stringToUint (String.ofList str.text) with
      | none => exact ⟨_, rfl, fun _ => ⟨hstr, List.not_mem_nil⟩, fun h => (by cases h)⟩
      | some v =>
        refine ⟨_, rfl, fun h => absurd rfl h, ?_⟩
        rintro - ctl' hfound hbyte
        rw [← Option.some.inj hfound, htype] at hbyte
        cases hbyte
    | enum =>
      refine ⟨_, rfl, fun h => absurd rfl h, ?_⟩
      rintro - ctl' hfound hbyte
      rw [← Option.some.inj hfound, htype] at hbyte
      cases hbyte
    | iec958 | int64 | unknown => exact ⟨_, rfl, fun _ => ⟨hstr, List.not_mem_nil⟩, fun h => (by cases h)⟩

/-! ## What is written to the control -/

theorem memcpy_spec {dst src : List (BitVec 8)} {offset : Nat} (h : offset + src.length ≤ dst.length) :
    ∃ dst', memcpy dst offset src = some dst' ∧ dst'.length = dst.length ∧
      ∀ j, dst'[j]? = if offset ≤ j ∧ j < offset + src.length then src[j - offset]? else dst[j]? := by
  refine ⟨_, if_pos h, by simp; omega, fun j => ?_⟩
  split
  case isTrue hin =>
    rw [List.append_assoc, List.getElem?_append_right (by rw [List.length_take]; omega), List.length_take,
      Nat.min_eq_left (by omega), List.getElem?_append_left (by omega)]
  case isFalse hout =>
    by_cases hbefore : j < offset
    · rw [List.append_assoc, List.getElem?_append_left (by rw [List.length_take]; omega),
        List.getElem?_take_of_lt hbefore]
    · rw [List.getElem?_append_right (by rw [List.length_append, List.length_take]; omega), List.getElem?_drop,
        List.length_append, List.length_take]
      congr 1
      omega

/-- The control's bytes with some of them replaced, in an array that is large enough. -/
theorem merge_spec {content bytes : List (BitVec 8)} {offset : Nat} (stack : Nat → BitVec 8)
    (hsmall : content.length ≤ BYTE_ARRAY_MAX_SIZE) (hwithin : offset + bytes.length ≤ content.length) :
    ∃ dst,
      memcpy (content ++ ((List.range BYTE_ARRAY_MAX_SIZE).map stack).drop content.length) offset bytes = some dst ∧
      (dst.take content.length).length = content.length ∧
      ∀ j, (dst.take content.length)[j]? =
        if offset ≤ j ∧ j < offset + bytes.length then bytes[j - offset]? else content[j]? := by
  have hdata : (content ++ ((List.range BYTE_ARRAY_MAX_SIZE).map stack).drop content.length).length =
      BYTE_ARRAY_MAX_SIZE := by
    simp
    omega
  obtain ⟨dst, hcopy, hsize, hbytes⟩ := @memcpy_spec _ bytes offset (by rw [hdata]; omega)
  have htake : (dst.take content.length).length = content.length := by
    rw [List.length_take, hsize, hdata]
    omega
  refine ⟨dst, hcopy, htake, fun j => ?_⟩
  by_cases hj : j < content.length
  · rw [List.getElem?_take_of_lt hj, hbytes j, List.getElem?_append_left hj]
  · rw [if_neg (by omega), List.getElem?_eq_none (by omega), List.getElem?_eq_none (by omega)]

/-- `array` is `content` with `bytes` from `offset` on in place of what was there. -/
def Replaced (content : List (BitVec 8)) (offset : Nat) (bytes array : List (BitVec 8)) : Prop :=
  ∀ j, array[j]? = if offset ≤ j ∧ j < offset + bytes.length then bytes[j - offset]? else content[j]?

/-- What `apply_ctls_l` does with a control whose bytes are `bytes`: it writes the control's
content with its bytes replaced, and returns what the library returns.  Where the content
cannot be read first it writes nothing. -/
def WritesBytes {σ : Type} (t : ArrayAccess σ) (stack : Nat → BitVec 8) (c : PCtl) (bytes : List (BitVec 8)) (s : σ) :
    Prop :=
  ∃ array, Replaced (t.content s) c.index.toNat bytes array ∧
    applyByteArray t stack c s =
      (if (c.index = 0 ∧ c.array_count = t.num_values s) ∨ 0 ≤ (t.get_array s (t.num_values s).toNat).1 then
        some (t.set_array s array)
      else some ((t.get_array s (t.num_values s).toNat).1, s)) ∧
    (0 ≤ (t.set_array s array).1 → t.content (t.set_array s array).2 = array)

/-- A control whose bytes were stored gets them, and keeps its others. -/
theorem applyByteArray_spec {σ : Type} {t : ArrayAccess σ} (ht : Documented t) (h : Stored vnum str c)
    (stack : Nat → BitVec 8) (s : σ) (hvnum : t.num_values s = vnum) :
    ∃ bytes, c.value = .data c.array_count.toNat bytes ∧ WritesBytes t stack c bytes s := by
  subst hvnum
  obtain ⟨bytes, hvalue, hlength, -⟩ := h.bytes
  have hwithin := h.within
  have hsmall := h.small
  have hcontent := ht.length s
  have hread : readBytes c.array_count.toNat bytes c.array_count.toNat = some bytes := by
    rw [readBytes, if_pos ⟨Nat.le_refl _, by omega⟩, List.take_of_length_le (by omega)]
  obtain ⟨ctl_data, hcopy, hsize, hbytes⟩ := @merge_spec _ bytes c.index.toNat stack (hcontent ▸ hsmall) (by omega)
  rw [hcontent] at hsize hbytes
  refine ⟨bytes, hvalue, ctl_data.take (t.num_values s).toNat, hbytes, ?_, ht.set s _ hsize⟩
  simp only [applyByteArray, hvalue, hread]
  by_cases hwhole : c.index = 0 ∧ c.array_count = t.num_values s
  · -- all of the content is replaced
    rw [if_pos hwhole, if_pos (.inl hwhole)]
    have hall : ctl_data.take (t.num_values s).toNat = bytes := by
      refine List.ext_getElem? fun j => ?_
      have hindex : c.index.toNat = 0 := by rw [hwhole.1]; rfl
      have hcount : bytes.length = (t.num_values s).toNat := by rw [hlength, hwhole.2]
      rw [hbytes j, hindex, Nat.sub_zero]
      split
      case isTrue => rfl
      case isFalse hout => rw [List.getElem?_eq_none (by omega), List.getElem?_eq_none (by omega)]
    rw [hall]
    rfl
  · rw [if_neg hwhole, if_neg (by omega)]
    by_cases herr : 0 ≤ (t.get_array s (t.num_values s).toNat).1
    · rw [if_pos herr, if_pos (.inr herr), ht.get s herr, Option.bind_some, hcopy]
      rfl
    · rw [if_neg herr, if_neg (not_or.mpr ⟨hwhole, herr⟩)]

/-- **Arrays of bytes.**  When the bytes of a control were made from its value they lie
within it, are those of the tokens, and are all that is changed of it later.  When they
were not, the value is still there. -/
theorem byte_array_safe (hstr : c.value = .string str) :
    ∃ m, makeByteArray memory vnum c = some m ∧
      (m.ret = 0 →
        m.c.index = c.index ∧ m.c.index.toNat + m.c.array_count.toNat ≤ vnum.toNat ∧ vnum.toNat ≤ BYTE_ARRAY_MAX_SIZE ∧
        ∃ bytes, m.c.value = .data m.c.array_count.toNat bytes ∧ bytes.length = m.c.array_count.toNat ∧
          bytes.map some = (Strtok.tokens ',' str.text).map tokenByte ∧
          ∀ {σ : Type} (t : ArrayAccess σ), Documented t → ∀ (stack : Nat → BitVec 8) (s : σ), t.num_values s = vnum →
            WritesBytes t stack m.c bytes s) ∧
      (m.ret ≠ 0 → m.c.value = .string str ∧ Obj.val_str ∉ m.freed) := by
  obtain ⟨m, hm, hstored, hkept⟩ := @makeByteArray_spec memory vnum c str hstr
  refine ⟨m, hm, fun hret => ?_, fun hret => ⟨(hkept hret).value, (hkept hret).owned⟩⟩
  obtain ⟨h, hindex⟩ := hstored hret
  obtain ⟨bytes, hvalue, hlength, hbytes⟩ := h.bytes
  refine ⟨hindex, h.within, h.small, bytes, hvalue, hlength, hbytes, ?_⟩
  intro σ t ht stack s hvnum
  obtain ⟨bytes', hvalue', hwrites⟩ := applyByteArray_spec ht h stack s hvnum
  obtain rfl : bytes = bytes' := by simpa [hvalue] using hvalue'
  exact hwrites

/-- A control of four bytes whose library calls do what they are asked for. -/
def fourBytes : ArrayAccess (Fin 4 → BitVec 8) where
  num_values _ := 4
  content := List.ofFn
  get_array s count := (0, (List.ofFn s).take count)
  set_array _ bytes := (0, fun i => bytes.getD i 0)

theorem fourBytes_documented : Documented fourBytes where
  length s := List.length_ofFn
  get_length s count := List.length_take_le count _
  get s _ := by simp [fourBytes]
  set s bytes h _ := by
    match bytes, h with
    | [a, b, c, d], _ => rfl

def twoBytes : PCtl := ⟨none, 1, 0, .byte, .string ⟨"7,,0x102".toList, by decide, by decide⟩⟩

/-- Its bytes 1 and 2 are set to 7 and 2. -/
theorem byte_array_safe_two :
    ∃ m s', makeByteArray ⟨true, true⟩ 4 twoBytes = some m ∧ m.ret = 0 ∧ m.c.value = .data 2 [7, 2] ∧
      applyByteArray fourBytes (fun _ => 0) m.c (fun _ => 9) = some (0, s') ∧ fourBytes.content s' = [9, 7, 2, 9] := by
  obtain ⟨m, hm, hok, -⟩ := @byte_array_safe ⟨true, true⟩ 4 twoBytes _ rfl
  have hmade : makeByteArray ⟨true, true⟩ 4 twoBytes =
      some ⟨0, { twoBytes with array_count := 2, value := .data 2 [7, 2] }, [.copy, .val_str]⟩ := rfl
  obtain rfl := Option.some.inj (hmade.symm.trans hm)
  obtain ⟨-, -, -, bytes, hvalue, -, -, hwrites⟩ := hok rfl
  obtain ⟨-, rfl⟩ := Value.data.inj hvalue
  obtain ⟨array, hreplaced, happly, hset⟩ := hwrites fourBytes fourBytes_documented (fun _ => 0) (fun _ => 9) rfl
  have harray : array = [9, 7, 2, 9] := by
    refine List.ext_getElem? fun j => (hreplaced j).trans ?_
    match j with
    | 0 | 1 | 2 | 3 => rfl
    | j + 4 => rfl
  exact ⟨_, _, hm, rfl, rfl, happly, (hset (le_refl 0)).trans harray⟩

end MochaHal.Audio.ByteCtl
