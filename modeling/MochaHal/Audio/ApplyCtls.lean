import MochaHal.Audio.TinyMixer
import MochaHal.Audio.Disconnect

/-! `apply_ctls_l` in `configmgr/audio_config.c`, on the mixer of `tinyalsa/src/mixer.c`.
A control is opened when it is read, and what was made of its text is kept; one that the
card does not have is tried again whenever it is applied.
`ctlWrites` says what a control writes by its text alone; the rest of this module shows
that the mixer ends up with these writes, whatever was opened before (`run_values`), and
that nothing else is ever written when calls fail (`run_frame`). -/

namespace MochaHal.Audio.TinyMixer
open MochaHal.Audio.Parser MochaHal.Audio.ByteCtl MochaHal.Writes

/-! ## The source -/

/-- `struct ctl` with its name. -/
structure Slot where
  name : String
  ctl : PCtl

def ctl_open (card : Card) (memory : Memory) (c : Slot) : Option (Int × Slot) :=
  (ByteCtl.ctlOpen memory ((card.mixer_get_ctl_by_name c.name).map Elem.toMixerCtl) c.ctl).map fun m =>
    (m.ret, { c with ctl := m.c })

/-- What is outside the configuration manager while one control is applied: whether there
is memory, what fails in its calls of the library, and what `ctl_data` holds at first. -/
structure World where
  memory : Memory
  fails : Nat → Failures
  stack : Nat → BitVec 8

/-- The loop over all values of a control, `n` of which are left. -/
def setValues (fails : Nat → Failures) (e : Elem) (value : Int) : Nat → Nat → State → State
  | 0, _, s => s
  | n + 1, vnum, s =>
    let r := mixer_ctl_set_value (fails vnum) e vnum value s
    if r.1 < 0 then r.2 else setValues fails e value n (vnum + 1) r.2

/-- The switch of `apply_ctls_l`; `none` where the value of the control is taken for what
it is not, or memory is used that may not be. -/
def applyCtl (card : Card) (w : World) (c : PCtl) (s : State) : Option State :=
  match card.mixer_get_ctl (c.id.getD UINT_MAX) with
  | none => some s
  | some e =>
    match e.type with
    | .bool | .int =>
      match c.value with
      | .uinteger v =>
        if c.index = INVALID_CTL_INDEX then some (setValues w.fails e v.toInt e.num_values 0 s)
        else some (mixer_ctl_set_value (w.fails 0) e c.index.toNat v.toInt s).2
      | _ => none
    | .byte => (applyByteArray (arrayAccess (w.fails 0) e) w.stack c s).map Prod.snd
    | .enum =>
      match c.value with
      | .string str => some (mixer_ctl_set_enum_by_string (w.fails 0) e (String.ofList str.text) s).2
      | _ => none
    | .iec958 | .int64 | .unknown => some s

/-- The loop of `apply_ctls_l` from the `i`-th control on; it stops at one that cannot be
opened. -/
def applyCtlsL (card : Card) (world : Nat → World) : Nat → List Slot → State → Option (List Slot × State)
  | _, [], s => some ([], s)
  | i, c :: rest, s =>
    (ctl_open card (world i).memory c).bind fun opened =>
      if opened.1 ≠ 0 then some (opened.2 :: rest, s)
      else
        (applyCtl card (world i) opened.2.ctl s).bind fun s =>
          (applyCtlsL card world (i + 1) rest s).map fun r => (opened.2 :: r.1, r.2)

/-! ## What a control writes -/

/-- An index that is not given is the first one in a control of bytes. -/
def byteIndex (index : BitVec 32) : BitVec 32 := if index = INVALID_CTL_INDEX then 0 else index

/-- The writes of a control, by its text; `none` if it cannot be opened. -/
def ctlWrites (card : Card) (c : Ctl) : Option (List Write) :=
  match card.mixer_get_ctl_by_name c.name with
  | none => none
  | some e =>
    match e.type with
    | .bool | .int =>
      (stringToUint c.value).map fun v =>
        if c.index = INVALID_CTL_INDEX then (List.range e.num_values).flatMap (valueWrites e v.toInt)
        else valueWrites e v.toInt c.index.toNat
    | .byte =>
      if Parser.makeByteArray { c with index := byteIndex c.index } e.toMixerCtl = 0 then
        some (byteWrites e (byteIndex c.index).toNat ((Strtok.tokens ',' c.value.toList).filterMap tokenByte))
      else none
    | .enum => some (enumWrites e c.value)
    | .iec958 | .int64 | .unknown => none

/-- A control as the configuration file has it. -/
structure CtlText where
  name : String
  index : BitVec 32
  value : CString

def CtlText.ctl (t : CtlText) : Ctl := ⟨t.name, t.index, String.ofList t.value.text⟩

/-- The control, if it is one of bytes. -/
def CtlText.byteCtl (t : CtlText) : Ctl := ⟨t.name, byteIndex t.index, String.ofList t.value.text⟩

/-- `new_ctl`, and what `parse_ctl_start` puts into it before it opens the control. -/
def CtlText.slot (t : CtlText) : Slot := ⟨t.name, ⟨none, t.index, 0, .unknown, .string t.value⟩⟩

/-- `parse_ctl_start` from there on; a control that the card does not have is left for later. -/
def parse_ctl_start (card : Card) (memory : Memory) (t : CtlText) : Option (Int × Slot) :=
  (ctl_open card memory t.slot).map fun r => (if r.1 = -ENOENT then 0 else r.1, r.2)

/-- What the slot of a control can hold: its text, or what was made of it for the element
of its name. -/
inductive Holds (card : Card) (t : CtlText) : PCtl → Prop
  | closed {c : PCtl} (hid : c.id = none) (hvalue : c.value = .string t.value)
      (hindex : c.index = t.index ∨
        (∃ e, card.mixer_get_ctl_by_name t.name = some e ∧ e.type = .byte) ∧ byteIndex c.index = byteIndex t.index) :
      Holds card t c
  | number {c : PCtl} {e : Elem} {v : BitVec 32} (he : card.mixer_get_ctl_by_name t.name = some e)
      (htype : e.type = .bool ∨ e.type = .int) (hid : c.id = some e.id) (hindex : c.index = t.index)
      (hv : stringToUint (String.ofList t.value.text) = some v) (hvalue : c.value = .uinteger v) : Holds card t c
  | item {c : PCtl} {e : Elem} (he : card.mixer_get_ctl_by_name t.name = some e) (htype : e.type = .enum)
      (hid : c.id = some e.id) (hvalue : c.value = .string t.value) : Holds card t c
  | bytes {c : PCtl} {e : Elem} (he : card.mixer_get_ctl_by_name t.name = some e) (htype : e.type = .byte)
      (hid : c.id = some e.id) (hindex : c.index = byteIndex t.index)
      (hmade : Parser.makeByteArray t.byteCtl e.toMixerCtl = 0)
      (hstored : Stored (BitVec.ofNat 32 e.num_values) t.value c) : Holds card t c

variable {card : Card} {t : CtlText} {c : PCtl} {s : State} {w : World} {e : Elem}

theorem holds_slot (t : CtlText) : Holds card t t.slot.ctl := .closed rfl rfl (.inl rfl)

theorem byNameLoop_mem {name : String} {index : Nat} {es : List Elem} (h : byNameLoop name index es = some e) :
    e ∈ es ∧ e.name = name := by
  induction es generalizing index with
  | nil => cases h
  | cons d es ih =>
    unfold byNameLoop at h
    split at h
    case isTrue hname =>
      cases index with
      | zero =>
        cases h
        exact ⟨List.mem_cons_self, hname.symm⟩
      | succ index =>
        obtain ⟨hmem, he⟩ := ih h
        exact ⟨List.mem_cons_of_mem d hmem, he⟩
    case isFalse =>
      obtain ⟨hmem, he⟩ := ih h
      exact ⟨List.mem_cons_of_mem d hmem, he⟩

theorem mem_of_name (h : card.mixer_get_ctl_by_name t.name = some e) : e ∈ card.ctls := (byNameLoop_mem h).1

/-- The id of an element finds it again. -/
theorem get_ctl_id (h : e ∈ card.ctls) : card.mixer_get_ctl e.id = some e := by
  obtain ⟨n, hn⟩ := List.mem_iff_getElem?.mp h
  rw [Card.mixer_get_ctl, card.numbered n e hn, hn]

theorem byteIndex_twice (index : BitVec 32) : byteIndex (byteIndex index) = byteIndex index := by
  unfold byteIndex
  split <;> rfl

/-! ## Opening -/

theorem fillByteArray_keeps {str : CString} {count : BitVec 32} {buf : List Char} {m : Made}
    (h : fillByteArray c str count buf = some m) : m.c.id = c.id ∧ m.c.index = c.index := by
  obtain ⟨text, -, h⟩ := Option.bind_eq_some_iff.mp h
  obtain ⟨⟨stored, cut⟩, -, h⟩ := Option.bind_eq_some_iff.mp h
  split at h <;> cases h <;> exact ⟨rfl, rfl⟩

theorem makeByteArray_keeps {memory : Memory} {vnum : BitVec 32} {m : Made}
    (h : ByteCtl.makeByteArray memory vnum c = some m) :
    m.c.id = c.id ∧ m.c.index = c.index ∧ (m.ret = 0 → memory = ⟨true, true⟩) := by
  unfold ByteCtl.makeByteArray at h
  split at h
  case h_2 => cases h
  case h_1 str hstr =>
    obtain ⟨strdup, malloc⟩ := memory
    split at h
    case isTrue =>
      cases h
      exact ⟨rfl, rfl, fun h => by cases h⟩
    split at h
    case isTrue =>
      cases h
      exact ⟨rfl, rfl, fun h => by cases h⟩
    split at h
    case isTrue =>
      cases h
      exact ⟨rfl, rfl, fun h => by cases h⟩
    case isFalse hstrdup hsmall hindex =>
    obtain ⟨⟨counted, cut⟩, -, h⟩ := Option.bind_eq_some_iff.mp h
    split at h
    case h_1 => cases h
    case h_2 count =>
    split at h
    case isTrue =>
      cases h
      exact ⟨rfl, rfl, fun h => by cases h⟩
    dsimp only at h
    split at h
    case isTrue =>
      cases h
      exact ⟨rfl, rfl, fun h => by cases h⟩
    case isFalse hmalloc =>
      obtain ⟨hid, hindex⟩ := fillByteArray_keeps h
      simp_all

/-- What `ctl_open` does to a slot. -/
structure Opens (card : Card) (t : CtlText) (memory : Memory) (ret : Int) (c' : PCtl) : Prop where
  holds : Holds card t c'
  id : ret = 0 → c'.id ≠ none
  writes : ret = 0 → (ctlWrites card t.ctl).isSome
  opens : memory = ⟨true, true⟩ → (ctlWrites card t.ctl).isSome → ret = 0

theorem ctlWrites_bytes (he : card.mixer_get_ctl_by_name t.name = some e) (htype : e.type = .byte) :
    ctlWrites card t.ctl = if Parser.makeByteArray t.byteCtl e.toMixerCtl = 0 then
      some (byteWrites e (byteIndex t.index).toNat ((Strtok.tokens ',' t.value.text).filterMap tokenByte)) else none := by
  unfold ctlWrites
  simp only [he, htype, CtlText.ctl, String.toList_ofList]
  rfl

theorem Holds.writes_of_id (h : Holds card t c) (hid : c.id ≠ none) : (ctlWrites card t.ctl).isSome := by
  cases h with
  | closed hnone => exact absurd hnone hid
  | number he htype _ _ hv =>
    rcases htype with htype | htype <;> simp [ctlWrites, CtlText.ctl, he, htype, hv]
  | item he htype => simp [ctlWrites, CtlText.ctl, he, htype]
  | bytes he htype _ _ hmade =>
    rw [ctlWrites_bytes he htype, if_pos hmade]
    rfl

/-- An array of bytes that is opened for the first time. -/
theorem open_bytes {memory : Memory} (hid : c.id = none) (hvalue : c.value = .string t.value)
    (hindex : byteIndex c.index = byteIndex t.index) (he : card.mixer_get_ctl_by_name t.name = some e)
    (htype : e.type = .byte) :
    ∃ ret c', ctl_open card memory ⟨t.name, c⟩ = some (ret, ⟨t.name, c'⟩) ∧ Opens card t memory ret c' := by
  obtain ⟨id, index, array_count, type, value⟩ := c
  obtain rfl : id = none := hid
  obtain rfl : value = .string t.value := hvalue
  have hpctl : (if index = INVALID_CTL_INDEX then (⟨none, 0, array_count, type, .string t.value⟩ : PCtl)
      else ⟨none, index, array_count, type, .string t.value⟩) =
      ⟨none, byteIndex t.index, array_count, type, .string t.value⟩ := by
    rw [← hindex]
    unfold byteIndex
    split <;> rfl
  obtain ⟨m, hm, hstored, hkept⟩ := @makeByteArray_spec memory (BitVec.ofNat 32 e.num_values)
    ⟨none, byteIndex t.index, array_count, type, .string t.value⟩ t.value rfl
  obtain ⟨hmid, hmindex, hmemory⟩ := makeByteArray_keeps hm
  have hret : memory = ⟨true, true⟩ → m.ret = Parser.makeByteArray t.byteCtl e.toMixerCtl := by
    rintro rfl
    obtain ⟨m', hm', hret⟩ := @makeByteArray_ret ⟨none, byteIndex t.index, array_count, type, .string t.value⟩
      t.value rfl t.name e.toMixerCtl (card.fits e (mem_of_name he))
    rw [hm] at hm'
    obtain rfl := Option.some.inj hm'
    exact hret
  have hopen : ctl_open card memory ⟨t.name, ⟨none, index, array_count, type, .string t.value⟩⟩ = some (m.ret,
      ⟨t.name, if m.ret ≠ 0 then m.c else { m.c with type := e.type, id := some e.id }⟩) := by
    unfold ctl_open ByteCtl.ctlOpen
    simp only [he, Option.map_some, htype, hpctl, hm]
    by_cases h : m.ret = 0 <;> simp [h]
  refine ⟨m.ret, _, hopen, ?_⟩
  by_cases h : m.ret = 0
  · obtain ⟨hs, -⟩ := hstored h
    have hmade := (hret (hmemory h)).symm.trans h
    rw [if_neg (not_not.mpr h)]
    have hholds : Holds card t { m.c with type := e.type, id := some e.id } :=
      .bytes he htype rfl hmindex hmade ⟨hs.within, hs.small, hs.bytes⟩
    have hid := Option.some_ne_none e.id
    exact ⟨hholds, fun _ => hid, fun _ => hholds.writes_of_id hid, fun _ _ => h⟩
  · rw [if_pos h]
    refine ⟨.closed hmid (hkept h).value (.inr ⟨⟨e, he, htype⟩, ?_⟩), fun h' => absurd h' h, fun h' => absurd h' h,
      fun hmemory hwrites => ?_⟩
    · rw [hmindex, byteIndex_twice]
    · rw [ctlWrites_bytes he htype] at hwrites
      split at hwrites
      case isTrue hmade => exact (hret hmemory).trans hmade
      case isFalse => cases hwrites

theorem open_spec (h : Holds card t c) (memory : Memory) :
    ∃ ret c', ctl_open card memory ⟨t.name, c⟩ = some (ret, ⟨t.name, c'⟩) ∧ Opens card t memory ret c' := by
  by_cases hid : c.id = none
  · cases h with
    | number _ _ hid' => rw [hid] at hid'; cases hid'
    | item _ _ hid' => rw [hid] at hid'; cases hid'
    | bytes _ _ hid' => rw [hid] at hid'; cases hid'
    | closed _ hvalue hindex =>
      have hfails : ∀ ret : Int, ret ≠ 0 → ctlWrites card t.ctl = none → Opens card t memory ret c := by
        intro ret hret hwrites
        refine ⟨.closed hid hvalue hindex, fun h => absurd h hret, fun h => absurd h hret, fun _ h => ?_⟩
        rw [hwrites] at h
        cases h
      cases he : card.mixer_get_ctl_by_name t.name with
      | none =>
        refine ⟨-ENOENT, c, ?_, hfails _ (by decide) ?_⟩
        · simp [ctl_open, ByteCtl.ctlOpen, hid, he]
        · simp [ctlWrites, CtlText.ctl, he]
      | some e =>
        cases htype : e.type with
        | byte =>
          refine open_bytes hid hvalue ?_ he htype
          rcases hindex with hindex | ⟨-, hindex⟩
          · rw [hindex]
          · exact hindex
        | bool | int =>
          have hindex : c.index = t.index := by
            rcases hindex with hindex | ⟨⟨e', he', htype'⟩, -⟩
            · exact hindex
            · rw [he] at he'
              cases he'
              rw [htype] at htype'
              cases htype'
          cases hv : stringToUint (String.ofList t.value.text) with
          | none =>
            refine ⟨-EINVAL, c, ?_, hfails _ (by decide) ?_⟩
            · simp [ctl_open, ByteCtl.ctlOpen, hid, he, htype, hvalue, hv]
            · simp [ctlWrites, CtlText.ctl, he, htype, hv]
          | some v =>
            refine ⟨0, { c with value := .uinteger v, type := e.type, id := some e.id }, ?_, ?_⟩
            · simp [ctl_open, ByteCtl.ctlOpen, hid, he, htype, hvalue, hv]
            · exact ⟨.number he (by simp [htype]) rfl hindex hv rfl, fun _ => Option.some_ne_none _,
                fun _ => by simp [ctlWrites, CtlText.ctl, he, htype, hv], fun _ _ => rfl⟩
        | enum =>
          refine ⟨0, { c with type := e.type, id := some e.id }, ?_, ?_⟩
          · simp [ctl_open, ByteCtl.ctlOpen, hid, he, htype]
          · exact ⟨.item he htype rfl hvalue, fun _ => Option.some_ne_none _,
              fun _ => by simp [ctlWrites, CtlText.ctl, he, htype], fun _ _ => rfl⟩
        | iec958 | int64 | unknown =>
          refine ⟨-EINVAL, c, ?_, hfails _ (by decide) ?_⟩
          · simp [ctl_open, ByteCtl.ctlOpen, hid, he, htype]
          · simp [ctlWrites, CtlText.ctl, he, htype]
  · obtain ⟨id, hid'⟩ := Option.ne_none_iff_exists'.mp hid
    refine ⟨0, c, ?_, h, fun _ => hid, fun _ => h.writes_of_id hid, fun _ _ => rfl⟩
    simp [ctl_open, ByteCtl.ctlOpen, hid']

/-! ## Applying -/

/-- Nothing fails while a control is applied. -/
def World.Quiet (w : World) : Prop := ∀ i, TinyMixer.Quiet (w.fails i)

theorem valueWrites_none {value : Int} (h : stored e value = none) (id : Nat) : valueWrites e value id = [] := by
  unfold valueWrites
  split
  · rw [h]
    rfl
  · rfl

/-- A call goes wrong without a failure only where no call writes anything. -/
theorem setValues_wrote (fails : Nat → Failures) (value : Int) {n vnum : Nat} (hn : vnum + n = e.num_values) (s : State) :
    Wrote ((List.range' vnum n).flatMap (valueWrites e value)) (∀ i, Quiet (fails i)) s
      (setValues fails e value n vnum s) := by
  induction n generalizing vnum s with
  | zero => exact .nothing rfl
  | succ n ih =>
    have hfirst : Wrote (valueWrites e value vnum) (Quiet (fails vnum)) s
        (mixer_ctl_set_value (fails vnum) e vnum value s).2 := set_value_wrote vnum value
    rw [List.range'_succ, List.flatMap_cons, setValues]
    split
    case isTrue hret =>
      refine hfirst.early fun hq => ⟨hq vnum, ?_⟩
      have hstored := (set_value_ret (hq vnum) (show vnum < e.num_values by omega) value).mp hret
      exact List.flatMap_eq_nil_iff.mpr fun id _ => valueWrites_none hstored id
    case isFalse => exact (hfirst.weaken fun hq => hq vnum).append (ih (by omega) _)

theorem filterMap_of_map {α β : Type} {f : α → Option β} {as : List α} {bs : List β} (h : bs.map some = as.map f) :
    as.filterMap f = bs := by
  have hall := congrArg (List.filterMap id) h
  rw [List.filterMap_map, List.filterMap_map] at hall
  simpa using hall.symm

/-- An open control writes what its text says. -/
theorem apply_spec (h : Holds card t c) (hid : c.id ≠ none) (hb : Bytes card s.values) :
    ∃ ws s', ctlWrites card t.ctl = some ws ∧ applyCtl card w c s = some s' ∧ Wrote ws w.Quiet s s' := by
  have hget : ∀ e, card.mixer_get_ctl_by_name t.name = some e → c.id = some e.id →
      card.mixer_get_ctl (c.id.getD UINT_MAX) = some e := by
    intro e he hid
    rw [hid, Option.getD_some, get_ctl_id (mem_of_name he)]
  cases h with
  | closed hnone => exact absurd hnone hid
  | @number e v he htype hid hindex hv hvalue =>
    by_cases hall : c.index = INVALID_CTL_INDEX
    · refine ⟨(List.range e.num_values).flatMap (valueWrites e v.toInt), setValues w.fails e v.toInt e.num_values 0 s,
        ?_, ?_, ?_⟩
      · rw [hindex] at hall
        rcases htype with htype | htype <;> simp [ctlWrites, CtlText.ctl, he, htype, hv, hall]
      · rcases htype with htype | htype <;> simp [applyCtl, hget e he hid, htype, hvalue, hall]
      · rw [List.range_eq_range']
        exact setValues_wrote w.fails v.toInt (Nat.zero_add _) s
    · refine ⟨valueWrites e v.toInt c.index.toNat, (mixer_ctl_set_value (w.fails 0) e c.index.toNat v.toInt s).2,
        ?_, ?_, (set_value_wrote _ _).weaken fun hq => hq 0⟩
      · rw [hindex] at hall ⊢
        rcases htype with htype | htype <;> simp [ctlWrites, CtlText.ctl, he, htype, hv, hall]
      · rcases htype with htype | htype <;> simp [applyCtl, hget e he hid, htype, hvalue, hall]
  | @item e he htype hid hvalue =>
    refine ⟨enumWrites e (String.ofList t.value.text),
      (mixer_ctl_set_enum_by_string (w.fails 0) e (String.ofList t.value.text) s).2, ?_, ?_,
      (set_enum_wrote htype _).weaken fun hq => hq 0⟩
    · simp [ctlWrites, CtlText.ctl, he, htype]
    · simp [applyCtl, hget e he hid, htype, hvalue]
  | @bytes e he htype hid hindex hmade hstored =>
    have hmem := mem_of_name he
    obtain ⟨bytes, err, s', hbytes, happly, hwrote⟩ :=
      apply_bytes_wrote (w.fails 0) hstored (card.fits e hmem) (hb e hmem htype) w.stack
    refine ⟨byteWrites e c.index.toNat bytes, s', ?_, ?_, hwrote.weaken fun hq => hq 0⟩
    · rw [ctlWrites_bytes he htype, if_pos hmade, filterMap_of_map hbytes, hindex]
    · simp [applyCtl, hget e he hid, htype, happly]

/-- Two elements of one id are the same. -/
theorem eq_of_id {e e' : Elem} (h : e ∈ card.ctls) (h' : e' ∈ card.ctls) (hid : e.id = e'.id) : e = e' := by
  have hget := get_ctl_id h
  rw [hid, get_ctl_id h'] at hget
  exact (Option.some.inj hget).symm

theorem mem_allWrites_id {ev : Nat → Int} {x : Write} (h : x ∈ allWrites e ev) : x.1.1 = e.id := by
  obtain ⟨n, -, rfl⟩ := List.mem_map.mp h
  rfl

theorem mem_valueWrites_id {value : Int} {id : Nat} {x : Write} (h : x ∈ valueWrites e value id) : x.1.1 = e.id := by
  unfold valueWrites at h
  split at h
  case isTrue =>
    cases hs : stored e value <;> simp [hs] at h
    rw [h]
  case isFalse => cases h

/-- What a control writes goes to the element of its name, and to one of bytes as bytes. -/
theorem ctlWrites_mem {ctl : Ctl} {ws : List Write} (h : ctlWrites card ctl = some ws) {x : Write} (hx : x ∈ ws) :
    ∃ e, card.mixer_get_ctl_by_name ctl.name = some e ∧ x.1.1 = e.id ∧
      (e.type = .byte → 0 ≤ x.2 ∧ x.2 < 2 ^ 8) := by
  unfold ctlWrites at h
  cases he : card.mixer_get_ctl_by_name ctl.name with
  | none => simp [he] at h
  | some e =>
    refine ⟨e, rfl, ?_⟩
    cases htype : e.type with
    | bool | int =>
      refine ⟨?_, fun h => by cases h⟩
      simp only [he, htype, Option.map_eq_some_iff] at h
      obtain ⟨v, -, rfl⟩ := h
      split at hx
      case isTrue =>
        obtain ⟨id, -, hx⟩ := List.mem_flatMap.mp hx
        exact mem_valueWrites_id hx
      case isFalse => exact mem_valueWrites_id hx
    | enum =>
      refine ⟨?_, fun h => by cases h⟩
      simp only [he, htype, Option.some.injEq] at h
      subst h
      unfold enumWrites at hx
      split at hx
      · cases hx
      · exact mem_allWrites_id hx
    | byte =>
      simp only [he, htype] at h
      split at h
      case isFalse => cases h
      case isTrue =>
        cases h
        obtain ⟨hid, -, -, hv⟩ := mem_byteWrites.mp hx
        refine ⟨hid, fun _ => ?_⟩
        rw [hv]
        omega
    | iec958 | int64 | unknown => simp [he, htype] at h

/-- Controls of bytes keep bytes. -/
theorem Bytes.wrote {ws : List Write} {p : Prop} {s' : State} (hb : Bytes card s.values) (h : Wrote ws p s s')
    {ctl : Ctl} (hws : ctlWrites card ctl = some ws) : Bytes card s'.values := by
  obtain ⟨done, hsub, -, hvalues⟩ := h.made
  intro e he htype i
  rw [hvalues]
  rcases store_mem done s.values (e.id, i) with hkeep | hmem
  · rw [hkeep]
    exact hb e he htype i
  · obtain ⟨e', he', hid, hbyte⟩ := ctlWrites_mem hws (hsub.subset hmem)
    obtain rfl := eq_of_id he (byNameLoop_mem he').1 hid
    exact hbyte htype

/-! ## A list of controls -/

/-- The writes of a list of controls: those in front of the first that cannot be opened. -/
def listWrites (card : Card) (ts : List CtlText) : List Write := applyCtls (ctlWrites card) (ts.map CtlText.ctl)

/-- There is memory, and nothing fails. -/
def Calm (world : Nat → World) : Prop := ∀ i, (world i).memory = ⟨true, true⟩ ∧ (world i).Quiet

def Matches (card : Card) (t : CtlText) (c : Slot) : Prop := c.name = t.name ∧ Holds card t c.ctl

/-- **A list of controls.**  It is applied without memory being misused, and writes what its
texts say if nothing fails, whatever had been opened before. -/
theorem applyCtlsL_spec {ts : List CtlText} {cs : List Slot} (h : List.Forall₂ (Matches card) ts cs)
    (hb : Bytes card s.values) (world : Nat → World) (i : Nat) :
    ∃ cs' s', applyCtlsL card world i cs s = some (cs', s') ∧ List.Forall₂ (Matches card) ts cs' ∧
      Bytes card s'.values ∧ Wrote (listWrites card ts) (Calm world) s s' := by
  induction h generalizing s i with
  | nil => exact ⟨[], s, rfl, .nil, hb, .nothing rfl⟩
  | @cons t c ts cs hc hcs ih =>
    obtain ⟨name, c⟩ := c
    obtain ⟨rfl, hc⟩ := hc
    obtain ⟨ret, c', hopen, hopens⟩ := open_spec hc (world i).memory
    by_cases hret : ret = 0
    · obtain ⟨ws, s₁, hws, happly, hwrote⟩ := apply_spec (w := world i) hopens.holds (hopens.id hret) hb
      obtain ⟨cs', s', hrest, hcs', hb', hwrote'⟩ := ih (hb.wrote hwrote hws) (i + 1)
      refine ⟨⟨t.name, c'⟩ :: cs', s', ?_, .cons ⟨rfl, hopens.holds⟩ hcs', hb', ?_⟩
      · rw [applyCtlsL, hopen, Option.bind_some, if_neg (not_not.mpr hret), happly, Option.bind_some, hrest]
        rfl
      · have hlist : listWrites card (t :: ts) = ws ++ listWrites card ts := by
          rw [listWrites, List.map_cons, applyCtls, hws]
          rfl
        rw [hlist]
        exact (hwrote.weaken fun hcalm => (hcalm i).2).append hwrote'
    · refine ⟨⟨t.name, c'⟩ :: cs, s, ?_, .cons ⟨rfl, hopens.holds⟩ hcs, hb, ?_⟩
      · rw [applyCtlsL, hopen, Option.bind_some, if_pos hret]
      · refine ⟨⟨[], List.nil_sublist _, fun hcalm => ?_, rfl⟩⟩
        have hnone : ctlWrites card t.ctl = none := by
          cases hw : ctlWrites card t.ctl with
          | none => rfl
          | some ws => exact absurd (hopens.opens (hcalm i).1 (by rw [hw]; rfl)) hret
        rw [listWrites, List.map_cons, applyCtls, hnone]

/-! ## Runs -/

variable {κ : Type} [DecidableEq κ]

/-- The arrays of controls of a configuration, by the paths or cases they belong to, and the
mixer. -/
structure Mgr (κ : Type) where
  arrays : κ → List Slot
  state : State

/-- The configuration as it is read when there is memory: the controls of the card are open. -/
def Mgr.read (card : Card) (texts : κ → List CtlText) (s : State) : Mgr κ where
  arrays k := (texts k).map fun t => ((parse_ctl_start card ⟨true, true⟩ t).map Prod.snd).getD t.slot
  state := s

/-- One array is applied. -/
def Mgr.apply (card : Card) (m : Mgr κ) (step : κ × (Nat → World)) : Option (Mgr κ) :=
  (applyCtlsL card step.2 0 (m.arrays step.1) m.state).map fun r => ⟨Function.update m.arrays step.1 r.1, r.2⟩

/-- The writes of a run, by the texts. -/
def runWrites (card : Card) (texts : κ → List CtlText) (steps : List (κ × (Nat → World))) : List Write :=
  steps.flatMap fun step => listWrites card (texts step.1)

variable {texts : κ → List CtlText} {m : Mgr κ}

omit [DecidableEq κ] in
theorem runWrites_keys (steps : List (κ × (Nat → World))) :
    runWrites card texts steps = (steps.map Prod.fst).flatMap fun k => listWrites card (texts k) := by
  rw [List.flatMap_map]
  rfl

/-- Every array holds what its texts say, open or not. -/
structure Mgr.Inv (card : Card) (texts : κ → List CtlText) (m : Mgr κ) : Prop where
  arrays : ∀ k, List.Forall₂ (Matches card) (texts k) (m.arrays k)
  bytes : Bytes card m.state.values

omit [DecidableEq κ] in
/-- A configuration that was read, whatever memory there was for each of its controls. -/
theorem inv_of_read (hread : ∀ k, List.Forall₂ (fun t c => ∃ memory ret, parse_ctl_start card memory t = some (ret, c))
    (texts k) (m.arrays k)) (hb : Bytes card m.state.values) : m.Inv card texts := by
  refine ⟨fun k => (hread k).imp fun t c hc => ?_, hb⟩
  obtain ⟨memory, ret, hc⟩ := hc
  obtain ⟨⟨ret', c'⟩, hopen, hc⟩ := Option.map_eq_some_iff.mp hc
  obtain ⟨ret'', c'', hopen', hopens⟩ := open_spec (holds_slot t) memory
  cases hopen.symm.trans hopen'
  cases hc
  exact ⟨rfl, hopens.holds⟩

omit [DecidableEq κ] in
variable (texts) in
theorem inv_read (hb : Bytes card s.values) : (Mgr.read card texts s).Inv card texts := by
  refine inv_of_read (fun k => List.forall₂_map_right_iff.mpr (List.forall₂_same.mpr fun t _ => ?_)) hb
  have hslot : Holds card t t.slot.ctl := holds_slot t
  obtain ⟨ret, c', hopen, -⟩ := open_spec hslot ⟨true, true⟩
  have hstart : parse_ctl_start card ⟨true, true⟩ t = some (if ret = -ENOENT then 0 else ret, ⟨t.name, c'⟩) := by
    rw [parse_ctl_start, show t.slot = ⟨t.name, t.slot.ctl⟩ from rfl, hopen, Option.map_some]
  exact ⟨⟨true, true⟩, _, by rw [hstart, Option.map_some, Option.getD_some]⟩

theorem apply_inv (h : m.Inv card texts) (step : κ × (Nat → World)) :
    ∃ m', m.apply card step = some m' ∧ m'.Inv card texts ∧
      Wrote (listWrites card (texts step.1)) (Calm step.2) m.state m'.state := by
  obtain ⟨cs, s', hlist, hcs, hb, hwrote⟩ := applyCtlsL_spec (h.arrays step.1) h.bytes step.2 0
  refine ⟨⟨Function.update m.arrays step.1 cs, s'⟩, by rw [Mgr.apply, hlist]; rfl, ⟨fun k => ?_, hb⟩, hwrote⟩
  show List.Forall₂ (Matches card) (texts k) (Function.update m.arrays step.1 cs k)
  by_cases hk : k = step.1
  · subst hk
    rw [Function.update_self]
    exact hcs
  · rw [Function.update_of_ne hk]
    exact h.arrays k

theorem run_inv (h : m.Inv card texts) (steps : List (κ × (Nat → World))) :
    ∃ m', steps.foldlM (Mgr.apply card) m = some m' ∧ m'.Inv card texts ∧
      Wrote (runWrites card texts steps) (∀ step ∈ steps, Calm step.2) m.state m'.state := by
  induction steps generalizing m with
  | nil => exact ⟨m, rfl, h, .nothing rfl⟩
  | cons step steps ih =>
    obtain ⟨m₁, happly, hinv, hwrote⟩ := apply_inv h step
    obtain ⟨m', hrun, hinv', hwrote'⟩ := ih hinv
    refine ⟨m', by rw [List.foldlM_cons, happly]; exact hrun, hinv', ?_⟩
    exact (hwrote.weaken fun hcalm => hcalm step List.mem_cons_self).append
      (hwrote'.weaken fun hcalm step' hstep => hcalm step' (List.mem_cons_of_mem _ hstep))

/-- **The mixer after a run.**  When nothing fails each value is what the last control that
sets it says, by the texts alone; it does not matter what was opened when. -/
theorem run_values (h : m.Inv card texts) {steps : List (κ × (Nat → World))} (hcalm : ∀ step ∈ steps, Calm step.2) :
    ∃ m', steps.foldlM (Mgr.apply card) m = some m' ∧ m'.Inv card texts ∧
      ∀ k, m'.state.values k = (lastWrite (given k) (runWrites card texts steps)).getD (m.state.values k) := by
  obtain ⟨m', hrun, hinv, ⟨done, -, hall, hvalues⟩⟩ := run_inv h steps
  refine ⟨m', hrun, hinv, fun k => ?_⟩
  rw [hvalues, hall hcalm, store_apply]

def curve : Elem := ⟨⟨1, .byte, 4, 0, 255⟩, "Curve", [], false⟩

def twoCtls : Card where
  ctls := [gain, curve]
  numbered := by
    rintro (_ | _ | n) e he
    · cases he; rfl
    · cases he; rfl
    · cases he
  fits := by
    intro e he
    rcases List.mem_pair.mp he with rfl | rfl <;> decide

def louder : List CtlText :=
  [⟨"Gain", INVALID_CTL_INDEX, ⟨"0x1e".toList, by decide, by decide⟩⟩,
   ⟨"Curve", 1, ⟨"7,,0x202".toList, by decide, by decide⟩⟩]

def quietWorld : World := ⟨⟨true, true⟩, fun _ _ => false, fun _ => 0⟩

/-- The card and the configuration `louder`, as it was read. -/
def loud : Mgr Unit := .read twoCtls (fun _ => louder) ⟨fun _ => 9, fun _ => false⟩

theorem nines_bytes : Bytes twoCtls fun _ => 9 :=
  fun _ _ _ _ => ⟨show (0 : Int) ≤ 9 by decide, show (9 : Int) < 2 ^ 8 by decide⟩

theorem loud_inv : loud.Inv twoCtls fun _ => louder := inv_read _ nines_bytes

theorem run_values_louder : ∃ m' : Mgr Unit,
    [((), fun _ => quietWorld), ((), fun _ => quietWorld)].foldlM (Mgr.apply twoCtls) loud = some m' ∧
    m'.state.values (0, 0) = 30 ∧ m'.state.values (1, 0) = 9 ∧ m'.state.values (1, 1) = 7 ∧
      m'.state.values (1, 2) = 2 ∧ m'.state.values (1, 3) = 9 := by
  have hcalm : ∀ step ∈ [((), fun _ => quietWorld), ((), fun _ => quietWorld)], Calm step.2 := by
    intro step hstep i
    rcases List.mem_pair.mp hstep with rfl | rfl <;> exact ⟨rfl, fun _ _ => rfl⟩
  obtain ⟨m', hrun, -, hvalues⟩ := run_values loud_inv hcalm
  refine ⟨m', hrun, ?_⟩
  simp only [hvalues]
  decide

/-- **Failures.**  Whatever fails, a value stays as it is or becomes one that a control of the
run says. -/
theorem run_frame (h : m.Inv card texts) (steps : List (κ × (Nat → World))) :
    ∃ m', steps.foldlM (Mgr.apply card) m = some m' ∧ m'.Inv card texts ∧
      ∀ k, m'.state.values k = m.state.values k ∨ (k, m'.state.values k) ∈ runWrites card texts steps := by
  obtain ⟨m', hrun, hinv, ⟨done, hsub, -, hvalues⟩⟩ := run_inv h steps
  refine ⟨m', hrun, hinv, fun k => ?_⟩
  rw [hvalues]
  exact (store_mem done m.state.values k).imp_right fun hmem => hsub.subset hmem

def failing : World := ⟨⟨true, true⟩, fun i p => match p with | .write => i = 0 | _ => false, fun _ => 0⟩

theorem run_frame_failing : ∃ m' : Mgr Unit,
    [((), fun i => if i = 0 then failing else quietWorld)].foldlM (Mgr.apply twoCtls) loud = some m' ∧
    ∀ k, m'.state.values k = 9 ∨
      (k, m'.state.values k) ∈ [(((0, 0), 30) : Write), ((1, 1), 7), ((1, 2), 2)] := by
  obtain ⟨m', hrun, -, hvalues⟩ := run_frame loud_inv [((), fun i => if i = 0 then failing else quietWorld)]
  exact ⟨m', hrun, hvalues⟩

/-- **Applying again.**  The same arrays, applied once more in the same order, change nothing. -/
theorem run_again (h : m.Inv card texts) {steps again : List (κ × (Nat → World))}
    (hsame : again.map Prod.fst = steps.map Prod.fst) (hcalm : ∀ step ∈ steps ++ again, Calm step.2) :
    ∃ m₁ m₂, steps.foldlM (Mgr.apply card) m = some m₁ ∧ again.foldlM (Mgr.apply card) m₁ = some m₂ ∧
      m₂.state.values = m₁.state.values := by
  obtain ⟨m₁, hrun, hinv, ⟨done, -, hall, hvalues⟩⟩ := run_inv h steps
  obtain ⟨m₂, hrun', -, ⟨done', -, hall', hvalues'⟩⟩ := run_inv hinv again
  refine ⟨m₁, m₂, hrun, hrun', ?_⟩
  have hwrites : runWrites card texts again = runWrites card texts steps := by
    rw [runWrites_keys, runWrites_keys, hsame]
  rw [hvalues', hvalues, hall' fun step hstep => hcalm step (List.mem_append_right _ hstep),
    hall fun step hstep => hcalm step (List.mem_append_left _ hstep), hwrites, ← store_append, store_twice]

theorem run_again_louder : ∃ m₁ m₂ : Mgr Unit,
    [((), fun _ => quietWorld)].foldlM (Mgr.apply twoCtls) loud = some m₁ ∧
    [((), fun _ => quietWorld)].foldlM (Mgr.apply twoCtls) m₁ = some m₂ ∧ m₂.state.values = m₁.state.values :=
  run_again loud_inv rfl fun step hstep _ => by
    rcases List.mem_pair.mp hstep with rfl | rfl <;> exact ⟨rfl, fun _ _ => rfl⟩

/-- **Routes.**  When the arrays are those of the paths that routing has applied, the mixer
ends up with the writes of these paths. -/
theorem applied_values {applied : List Applied} (key : Applied → κ) (h : m.Inv card texts)
    (htexts : ∀ a ∈ applied, (texts (key a)).map CtlText.ctl = a.path.ctls)
    {steps : List (κ × (Nat → World))} (hsteps : steps.map Prod.fst = applied.map key)
    (hcalm : ∀ step ∈ steps, Calm step.2) :
    ∃ m', steps.foldlM (Mgr.apply card) m = some m' ∧
      m'.state.values = store (writes (ctlWrites card) applied) m.state.values := by
  obtain ⟨m', hrun, -, ⟨done, -, hall, hvalues⟩⟩ := run_inv h steps
  refine ⟨m', hrun, ?_⟩
  have hwrites : runWrites card texts steps = writes (ctlWrites card) applied := by
    rw [runWrites_keys, hsteps, List.flatMap_map]
    refine List.flatMap_congr fun a ha => ?_
    rw [listWrites, htexts a ha]
    rfl
  rw [hvalues, hall hcalm, hwrites]

end MochaHal.Audio.TinyMixer
