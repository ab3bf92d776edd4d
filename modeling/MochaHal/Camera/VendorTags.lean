import MochaHal.Lib.Assoc
import MochaHal.Lib.Checked
import MochaHal.Lib.Parcel
import Mathlib.Data.List.Find
import Mathlib.Data.List.Lex
import Mathlib.Data.Char

/-! The vendor tags of a camera in `libmocha/camera/VendorTagDescriptor.cpp`: the tags that a
module reports, each with a name, a type and a section.

Both ways to make a descriptor, from a module or from a parcel, end in one loop that sets up
`mReverseMapping`; the proofs meet at `Holds`, which says of a descriptor that its tables are
those of one list of tags.  `lookupTag_reported` says which of the module's tags a name and a
section lead to. -/

namespace MochaHal.Camera.VendorTags
open MochaHal.Assoc MochaHal.Checked MochaHal.Parcel

/-! ## The source -/

def BAD_VALUE : Int := -22
def NOT_ENOUGH_DATA : Int := -61

def CAMERA_METADATA_VENDOR_TAG_BOUNDARY : Nat := 0x80000000
def NUM_TYPES : Int := 6

/-- A status other than `OK`, a null pointer, a check that ends the process, or an element
behind the end of a vector, of which nothing is said. -/
inductive Failure
  | status (res : Int)
  | null
  | abort
  | undefined
  deriving DecidableEq, Repr

/-- `mSections` has no values, only keys. -/
structure VendorTagDescriptor where
  mReverseMapping : List (String8 × List (String8 × Nat))
  mTagToNameMap : List (Nat × String8)
  mTagToSectionMap : List (Nat × Nat)
  mTagToTypeMap : List (Nat × Int)
  mSections : List (String8 × Unit)
  mTagCount : Int
  deriving DecidableEq

def VendorTagDescriptor.new : VendorTagDescriptor := ⟨[], [], [], [], [], 0⟩

/-- `valueFor`, which ends the process where there is no such key. -/
def valueFor {κ ν : Type} [DecidableEq κ] (m : List (κ × ν)) (k : κ) : Except Failure ν :=
  match lookup k m with
  | none => .error .abort
  | some v => .ok v

/-- `operator[]` of a vector, which looks at no bound outside of debug builds. -/
def valueAt {κ ν : Type} (m : List (κ × ν)) (i : Nat) : Except Failure κ :=
  match m[i]? with
  | none => .error .undefined
  | some p => .ok p.1

/-- The mapper of the section is made if there is none, and the tag added to it. -/
def addReverse (m : List (String8 × List (String8 × Nat))) (sectionString name : String8)
    (tag : Nat) : List (String8 × List (String8 × Nat)) :=
  Assoc.insert sectionString (Assoc.insert name tag ((lookup sectionString m).getD [])) m

/-! ### From the module -/

/-- The answers of the module.  `get_all_tags` fills an array of as many tags as
`get_tag_count` says. -/
structure vendor_tag_ops where
  get_tag_count : Int
  get_all_tags : List (BitVec 32)
  get_tag_name : Nat → Option String8
  get_section_name : Nat → Option String8
  get_tag_type : Nat → Int
  length_eq : 0 ≤ get_tag_count → get_all_tags.length = get_tag_count

def vendor_tag_ops.tagArray (vOps : vendor_tag_ops) : List Nat := vOps.get_all_tags.map (·.toNat)

/-- What the first loop of `createDescriptorFromOps` fills. -/
structure Collected where
  desc : VendorTagDescriptor
  sections : List (String8 × Unit)
  tagToSectionMap : List (Nat × String8)

def collectTag (vOps : vendor_tag_ops) (c : Collected) (tag : Nat) : Except Failure Collected :=
  if tag < CAMERA_METADATA_VENDOR_TAG_BOUNDARY then .error (.status BAD_VALUE)
  else
    match vOps.get_tag_name tag with
    | none => .error (.status BAD_VALUE)
    | some tagName =>
      match vOps.get_section_name tag with
      | none => .error (.status BAD_VALUE)
      | some sectionName =>
        let tagType := vOps.get_tag_type tag
        if tagType < 0 ∨ NUM_TYPES ≤ tagType then .error (.status BAD_VALUE)
        else .ok {
          desc := { c.desc with
            mTagToNameMap := Assoc.insert tag tagName c.desc.mTagToNameMap
            mTagToTypeMap := Assoc.insert tag tagType c.desc.mTagToTypeMap }
          sections := Assoc.insert sectionName () c.sections
          tagToSectionMap := Assoc.insert tag sectionName c.tagToSectionMap }

/-- The body of the second loop. -/
def mapTagOfOps (c : Collected) (desc : VendorTagDescriptor) (tag : Nat) :
    Except Failure VendorTagDescriptor := do
  let sectionString ← valueFor c.tagToSectionMap tag
  match c.sections.findIdx? (·.1 = sectionString) with
  | none => .error .abort
  | some index =>
    let name ← valueFor desc.mTagToNameMap tag
    .ok { desc with
      mTagToSectionMap := Assoc.insert tag index desc.mTagToSectionMap
      mReverseMapping := addReverse desc.mReverseMapping sectionString name tag }

def createDescriptorFromOps (vOps : vendor_tag_ops) : Except Failure VendorTagDescriptor :=
  if vOps.get_tag_count < 0 ∨ INT32_MAX < vOps.get_tag_count then .error (.status BAD_VALUE)
  else do
    let desc := { VendorTagDescriptor.new with mTagCount := vOps.get_tag_count }
    let c ← vOps.tagArray.foldlM (collectTag vOps) ⟨desc, [], []⟩
    vOps.tagArray.foldlM (mapTagOfOps c) { c.desc with mSections := c.sections }

/-! ### Lookups -/

def VendorTagDescriptor.getTagName (d : VendorTagDescriptor) (tag : Nat) : Except Failure String8 :=
  match lookup tag d.mTagToNameMap with
  | none => .error .null
  | some name => .ok name

def VendorTagDescriptor.getSectionName (d : VendorTagDescriptor) (tag : Nat) : Except Failure String8 :=
  match lookup tag d.mTagToSectionMap with
  | none => .error .null
  | some index => valueAt d.mSections index

/-- `VENDOR_TAG_TYPE_ERR` is -1. -/
def VendorTagDescriptor.getTagType (d : VendorTagDescriptor) (tag : Nat) : Except Failure Int :=
  match lookup tag d.mTagToNameMap with
  | none => .error (.status (-1))
  | some _ => valueFor d.mTagToTypeMap tag

def VendorTagDescriptor.lookupTag (d : VendorTagDescriptor) (name sectionString : String8) :
    Except Failure Nat :=
  match lookup sectionString d.mReverseMapping with
  | none => .error (.status BAD_VALUE)
  | some nameMapper =>
    match lookup name nameMapper with
    | none => .error (.status BAD_VALUE)
    | some tag => .ok tag

/-! ## The reverse mapping -/

section
variable {m m' : List (String8 × List (String8 × Nat))}

def findTag (m : List (String8 × List (String8 × Nat))) (s n : String8) : Option Nat :=
  (lookup s m).bind (lookup n)

theorem lookupTag_ok {d : VendorTagDescriptor} {n s : String8} {t : Nat} :
    d.lookupTag n s = .ok t ↔ findTag d.mReverseMapping s n = some t := by
  unfold VendorTagDescriptor.lookupTag findTag
  cases lookup s d.mReverseMapping with
  | none => simp
  | some mapper => cases hn : lookup n mapper <;> simp [hn]

theorem findTag_addReverse (m : List (String8 × List (String8 × Nat))) (s n s' n' : String8) (t : Nat) :
    findTag (addReverse m s n t) s' n' = if s = s' ∧ n = n' then some t else findTag m s' n' := by
  unfold findTag addReverse
  rw [lookup_insert]
  by_cases hs : s = s'
  · subst hs
    rw [if_pos rfl, Option.bind_some, lookup_insert]
    by_cases hn : n = n'
    · simp [hn]
    · cases lookup s m <;> simp [hn]
  · simp [hs]

/-- Both levels are sorted, and a mapper is made for a tag. -/
def Nested (m : List (String8 × List (String8 × Nat))) : Prop :=
  Sorted m ∧ ∀ q ∈ m, Sorted q.2 ∧ q.2 ≠ []

theorem Nested.lookup (h : Nested m) {s : String8} {mapper : List (String8 × Nat)}
    (hs : Assoc.lookup s m = some mapper) : Sorted mapper ∧ mapper ≠ [] :=
  h.2 _ ((lookup_eq_some h.1.nodup).mp hs)

theorem Nested.addReverse (h : Nested m) (s n : String8) (t : Nat) : Nested (addReverse m s n t) := by
  refine ⟨h.1.insert _ _, fun q hq => ?_⟩
  rcases mem_insert hq with rfl | hq
  · have hsorted : Sorted ((Assoc.lookup s m).getD []) := by
      cases hs : Assoc.lookup s m with
      | none => exact List.Pairwise.nil
      | some mapper => exact (h.lookup hs).1
    refine ⟨hsorted.insert n t, fun hnil => ?_⟩
    have hfound := lookup_insert n n t ((Assoc.lookup s m).getD [])
    rw [if_pos rfl, show Assoc.insert n t ((Assoc.lookup s m).getD []) = [] from hnil] at hfound
    cases hfound
  · exact h.2 q hq

/-- A reverse mapping is known by what is found in it. -/
theorem Nested.ext (h : Nested m) (h' : Nested m') (heq : ∀ s n, findTag m s n = findTag m' s n) :
    m = m' := by
  have hsome : ∀ {mapper : List (String8 × Nat)}, mapper ≠ [] → ∃ n t, Assoc.lookup n mapper = some t := by
    intro mapper hne
    obtain ⟨q, mapper, rfl⟩ := List.exists_cons_of_ne_nil hne
    exact ⟨q.1, q.2, by rw [lookup_cons, if_pos rfl]⟩
  refine h.1.ext h'.1 fun s => ?_
  have hfind := heq s
  unfold findTag at hfind
  cases hs : Assoc.lookup s m with
  | none =>
    cases hs' : Assoc.lookup s m' with
    | none => rfl
    | some mapper' =>
      obtain ⟨n, t, hn⟩ := hsome (h'.lookup hs').2
      simpa [hs, hs', hn] using hfind n
  | some mapper =>
    cases hs' : Assoc.lookup s m' with
    | none =>
      obtain ⟨n, t, hn⟩ := hsome (h.lookup hs).2
      simpa [hs, hs', hn] using hfind n
    | some mapper' =>
      congr 1
      refine (h.lookup hs).1.ext (h'.lookup hs').1 fun n => ?_
      simpa [hs, hs'] using hfind n

end

section
variable (sec name : Nat → String8)

/-- What the last loops set up, of the section and the name of each tag. -/
def reverseOf (tags : List Nat) : List (String8 × List (String8 × Nat)) :=
  tags.foldl (fun m t => addReverse m (sec t) (name t) t) []

theorem reverseOf_concat (tags : List Nat) (t : Nat) :
    reverseOf sec name (tags ++ [t]) = addReverse (reverseOf sec name tags) (sec t) (name t) t := by
  unfold reverseOf
  rw [List.foldl_append]
  rfl

theorem nested_reverseOf (tags : List Nat) : Nested (reverseOf sec name tags) := by
  induction tags using List.reverseRecOn with
  | nil => exact ⟨.nil, fun q hq => by cases hq⟩
  | append_singleton tags t ih =>
    rw [reverseOf_concat]
    exact ih.addReverse _ _ _

/-- The last of the tags with a section and a name is found. -/
theorem findTag_reverseOf (tags : List Nat) (s n : String8) :
    findTag (reverseOf sec name tags) s n = tags.reverse.find? fun t => sec t = s ∧ name t = n := by
  induction tags using List.reverseRecOn with
  | nil => rfl
  | append_singleton tags t ih =>
    rw [reverseOf_concat, findTag_addReverse, ih, List.reverse_append, List.reverse_singleton,
      List.singleton_append, List.find?_cons]
    by_cases ht : sec t = s ∧ name t = n <;> simp [ht]

variable {sec name} in
theorem reverseOf_congr {sec' name' : Nat → String8} {tags : List Nat}
    (hsec : ∀ t ∈ tags, sec t = sec' t) (hname : ∀ t ∈ tags, name t = name' t) :
    reverseOf sec name tags = reverseOf sec' name' tags := by
  unfold reverseOf
  refine List.foldl_ext _ _ _ fun m t ht => ?_
  rw [hsec t ht, hname t ht]

end

/-! ## Descriptors -/

/-- What a parcel says of a tag. -/
structure Tag where
  name : String8
  type : Int
  sectionIndex : Nat
  deriving DecidableEq

section
variable {d : VendorTagDescriptor} {rows : List (Nat × Tag)} {tags : List Nat} {t : Nat} {n s : String8}

def VendorTagDescriptor.nameOf (d : VendorTagDescriptor) (t : Nat) : String8 :=
  (lookup t d.mTagToNameMap).getD []

def VendorTagDescriptor.sectionOf (d : VendorTagDescriptor) (t : Nat) : String8 :=
  match d.getSectionName t with
  | .ok s => s
  | .error _ => []

/-- The tag and its type are in their ranges. -/
def Legal (q : Nat × Tag) : Prop :=
  CAMERA_METADATA_VENDOR_TAG_BOUNDARY ≤ q.1 ∧ q.1 < 2 ^ 32 ∧ 0 ≤ q.2.type ∧ q.2.type < NUM_TYPES

/-- The tables are those of one list of tags, and the reverse mapping has been set up from
these in the order `tags`. -/
structure Holds (d : VendorTagDescriptor) (rows : List (Nat × Tag)) (tags : List Nat) : Prop where
  sorted : Sorted rows
  names : d.mTagToNameMap = mapValues Tag.name rows
  sectionMap : d.mTagToSectionMap = mapValues Tag.sectionIndex rows
  types : d.mTagToTypeMap = mapValues Tag.type rows
  sections : Sorted d.mSections
  legal : ∀ q ∈ rows, Legal q
  index : ∀ q ∈ rows, q.2.sectionIndex < d.mSections.length
  keys : ∀ t, t ∈ tags ↔ t ∈ rows.map Prod.fst
  reverse : d.mReverseMapping = reverseOf d.sectionOf d.nameOf tags

theorem getTagName_nameOf (h : ∃ n, d.getTagName t = .ok n) : d.getTagName t = .ok (d.nameOf t) := by
  obtain ⟨n, h⟩ := h
  unfold VendorTagDescriptor.getTagName at h ⊢
  unfold VendorTagDescriptor.nameOf
  cases hlookup : lookup t d.mTagToNameMap with
  | none => simp [hlookup] at h
  | some name => rfl

theorem getSectionName_sectionOf (h : ∃ s, d.getSectionName t = .ok s) :
    d.getSectionName t = .ok (d.sectionOf t) := by
  obtain ⟨s, h⟩ := h
  rw [VendorTagDescriptor.sectionOf, h]

theorem Holds.lookup (h : Holds d rows tags) {q : Nat × Tag} (hq : q ∈ rows) :
    Assoc.lookup q.1 d.mTagToNameMap = some q.2.name ∧
    Assoc.lookup q.1 d.mTagToSectionMap = some q.2.sectionIndex ∧
    Assoc.lookup q.1 d.mTagToTypeMap = some q.2.type := by
  have hrow : Assoc.lookup q.1 rows = some q.2 := (lookup_eq_some h.sorted.nodup).mpr hq
  rw [h.names, h.sectionMap, h.types, lookup_mapValues, lookup_mapValues, lookup_mapValues, hrow]
  exact ⟨rfl, rfl, rfl⟩

theorem Holds.row (h : Holds d rows tags) (ht : t ∈ tags) : ∃ tag, (t, tag) ∈ rows := by
  obtain ⟨q, hq, rfl⟩ := List.mem_map.mp ((h.keys t).mp ht)
  exact ⟨q.2, hq⟩

/-- What the getters answer of a tag. -/
theorem Holds.getters (h : Holds d rows tags) {tag : Tag} (ht : (t, tag) ∈ rows) :
    d.getTagName t = .ok tag.name ∧ d.getTagType t = .ok tag.type ∧
    ∃ q ∈ d.mSections, d.mSections[tag.sectionIndex]? = some q ∧ d.getSectionName t = .ok q.1 := by
  obtain ⟨hname, hsection, htype⟩ := h.lookup ht
  have hat := List.getElem?_eq_getElem (h.index _ ht)
  simp only at hname hsection htype hat
  refine ⟨?_, ?_, _, List.getElem_mem (h.index _ ht), hat, ?_⟩
  · rw [VendorTagDescriptor.getTagName, hname]
  · rw [VendorTagDescriptor.getTagType, hname]
    simp only [valueFor, htype]
  · rw [VendorTagDescriptor.getSectionName, hsection]
    simp only [valueAt, hat]

/-- Outside of the tags there is nothing. -/
theorem Holds.mem_of_name (h : Holds d rows tags) (hn : d.getTagName t = .ok n) : t ∈ tags := by
  rw [h.keys]
  unfold VendorTagDescriptor.getTagName at hn
  by_contra hout
  rw [h.names, lookup_mapValues, lookup_eq_none.mpr hout] at hn
  cases hn

theorem Holds.nameOf_iff (h : Holds d rows tags) (ht : t ∈ tags) :
    d.nameOf t = n ↔ d.getTagName t = .ok n := by
  obtain ⟨tag, hrow⟩ := h.row ht
  rw [(h.getters hrow).1, VendorTagDescriptor.nameOf, (h.lookup hrow).1]
  simp

theorem Holds.sectionOf_iff (h : Holds d rows tags) (ht : t ∈ tags) :
    d.sectionOf t = s ↔ d.getSectionName t = .ok s := by
  obtain ⟨tag, hrow⟩ := h.row ht
  obtain ⟨-, -, q, -, -, hq⟩ := h.getters hrow
  rw [VendorTagDescriptor.sectionOf, hq]
  simp

/-- A name and a section are looked up to the last tag that has them. -/
theorem Holds.lookupTag (h : Holds d rows tags) : d.lookupTag n s = .ok t ↔
    tags.reverse.find? (fun t => d.getTagName t = .ok n ∧ d.getSectionName t = .ok s) = some t := by
  rw [lookupTag_ok, h.reverse, findTag_reverseOf]
  have hcongr : ∀ t ∈ tags.reverse, decide (d.sectionOf t = s ∧ d.nameOf t = n) =
      decide (d.getTagName t = .ok n ∧ d.getSectionName t = .ok s) := by
    intro t ht
    have ht := List.mem_reverse.mp ht
    refine decide_eq_decide.mpr ?_
    rw [h.nameOf_iff ht, h.sectionOf_iff ht, and_comm]
  rw [List.find?_congr hcongr]

end

/-! ## From the module -/

section
variable {α : Type} {vOps : vendor_tag_ops} {tags : List Nat} {d : VendorTagDescriptor} {t : Nat} {n s : String8}

def vendor_tag_ops.nameOf (vOps : vendor_tag_ops) (t : Nat) : String8 := (vOps.get_tag_name t).getD []

def vendor_tag_ops.sectionOf (vOps : vendor_tag_ops) (t : Nat) : String8 :=
  (vOps.get_section_name t).getD []

/-- A tag that the first loop accepts. -/
structure Reported (vOps : vendor_tag_ops) (t : Nat) : Prop where
  boundary : CAMERA_METADATA_VENDOR_TAG_BOUNDARY ≤ t
  name : vOps.get_tag_name t = some (vOps.nameOf t)
  section_name : vOps.get_section_name t = some (vOps.sectionOf t)
  type : 0 ≤ vOps.get_tag_type t ∧ vOps.get_tag_type t < NUM_TYPES

theorem collectTag_ok {c c' : Collected} (h : collectTag vOps c t = .ok c') : Reported vOps t ∧
    c' = {
      desc := { c.desc with
        mTagToNameMap := Assoc.insert t (vOps.nameOf t) c.desc.mTagToNameMap
        mTagToTypeMap := Assoc.insert t (vOps.get_tag_type t) c.desc.mTagToTypeMap }
      sections := Assoc.insert (vOps.sectionOf t) () c.sections
      tagToSectionMap := Assoc.insert t (vOps.sectionOf t) c.tagToSectionMap } := by
  unfold collectTag at h
  split at h
  case isTrue => cases h
  case isFalse hboundary =>
    split at h
    case h_1 => cases h
    case h_2 name hname =>
      split at h
      case h_1 => cases h
      case h_2 sectionName hsection =>
        simp only at h
        split at h
        case isTrue => cases h
        case isFalse htype =>
          have hnameOf : vOps.nameOf t = name := by rw [vendor_tag_ops.nameOf, hname, Option.getD_some]
          have hsectionOf : vOps.sectionOf t = sectionName := by
            rw [vendor_tag_ops.sectionOf, hsection, Option.getD_some]
          rw [hnameOf, hsectionOf]
          cases h
          exact ⟨⟨not_lt.mp hboundary, hnameOf ▸ hname, hsectionOf ▸ hsection, by omega⟩, rfl⟩

theorem collectTags_ok {c c' : Collected} (h : tags.foldlM (collectTag vOps) c = .ok c') :
    (∀ t ∈ tags, Reported vOps t) ∧
    c' = {
      desc := { c.desc with
        mTagToNameMap := tags.foldl (fun m t => Assoc.insert t (vOps.nameOf t) m) c.desc.mTagToNameMap
        mTagToTypeMap :=
          tags.foldl (fun m t => Assoc.insert t (vOps.get_tag_type t) m) c.desc.mTagToTypeMap }
      sections := tags.foldl (fun m t => Assoc.insert (vOps.sectionOf t) () m) c.sections
      tagToSectionMap :=
        tags.foldl (fun m t => Assoc.insert t (vOps.sectionOf t) m) c.tagToSectionMap } := by
  induction tags generalizing c with
  | nil =>
    cases h
    exact ⟨fun t ht => (List.not_mem_nil ht).elim, rfl⟩
  | cons t tags ih =>
    rw [List.foldlM_cons] at h
    obtain ⟨c₁, h₁, h⟩ := bind_ok h
    obtain ⟨ht, rfl⟩ := collectTag_ok h₁
    obtain ⟨htags, rfl⟩ := ih h
    exact ⟨List.forall_mem_cons.mpr ⟨ht, htags⟩, rfl⟩

/-- The second loop, once all of its lookups have an answer. -/
theorem mapTagsOfOps_eq {c : Collected} (sec name : Nat → String8) (idx : Nat → Nat)
    (h : ∀ t ∈ tags, lookup t c.tagToSectionMap = some (sec t) ∧
      c.sections.findIdx? (·.1 = sec t) = some (idx t) ∧ lookup t d.mTagToNameMap = some (name t)) :
    tags.foldlM (mapTagOfOps c) d = .ok { d with
      mTagToSectionMap := tags.foldl (fun m t => Assoc.insert t (idx t) m) d.mTagToSectionMap
      mReverseMapping := tags.foldl (fun m t => addReverse m (sec t) (name t) t) d.mReverseMapping } := by
  induction tags generalizing d with
  | nil => rfl
  | cons t tags ih =>
    obtain ⟨hsec, hidx, hname⟩ := h t List.mem_cons_self
    have hstep : mapTagOfOps c d t = .ok { d with
        mTagToSectionMap := Assoc.insert t (idx t) d.mTagToSectionMap
        mReverseMapping := addReverse d.mReverseMapping (sec t) (name t) t } := by
      simp [mapTagOfOps, valueFor, hsec, hidx, hname, bind, Except.bind]
    rw [List.foldlM_cons, hstep]
    exact ih fun u hu => h u (List.mem_cons_of_mem _ hu)

/-- The section of a tag as an index. -/
def vendor_tag_ops.indexOf (vOps : vendor_tag_ops) (t : Nat) : Nat :=
  ((ofList (vOps.tagArray.map fun t => (vOps.sectionOf t, ()))).findIdx?
    (·.1 = vOps.sectionOf t)).getD 0

def vendor_tag_ops.tagOf (vOps : vendor_tag_ops) (t : Nat) : Tag :=
  ⟨vOps.nameOf t, vOps.get_tag_type t, vOps.indexOf t⟩

/-- The tags of a module, sorted. -/
def vendor_tag_ops.rows (vOps : vendor_tag_ops) : List (Nat × Tag) :=
  ofList (vOps.tagArray.map fun t => (t, vOps.tagOf t))

theorem foldl_rows (f : Tag → α) (vOps : vendor_tag_ops) :
    vOps.tagArray.foldl (fun m t => Assoc.insert t (f (vOps.tagOf t)) m) [] = mapValues f vOps.rows := by
  rw [vendor_tag_ops.rows, ← ofList_mapValues, mapValues, List.map_map, ofList, List.foldl_map]
  rfl

def vendor_tag_ops.sections (vOps : vendor_tag_ops) : List (String8 × Unit) :=
  ofList (vOps.tagArray.map fun t => (vOps.sectionOf t, ()))

theorem findIdx_sections (ht : t ∈ vOps.tagArray) :
    vOps.sections.findIdx? (·.1 = vOps.sectionOf t) = some (vOps.indexOf t) := by
  have hne : vOps.sections.findIdx? (·.1 = vOps.sectionOf t) ≠ none := by
    rw [Ne, findIdx_eq_none, lookup_eq_none, vendor_tag_ops.sections, mem_keys_ofList, List.map_map]
    exact not_not.mpr (List.mem_map.mpr ⟨t, ht, rfl⟩)
  obtain ⟨i, hi⟩ := Option.ne_none_iff_exists'.mp hne
  rw [vendor_tag_ops.indexOf, ← vendor_tag_ops.sections, hi, Option.getD_some]

/-- **What the module's tags make of a descriptor.** -/
theorem createDescriptorFromOps_eq (h : createDescriptorFromOps vOps = .ok d) :
    (∀ t ∈ vOps.tagArray, Reported vOps t) ∧ 0 ≤ vOps.get_tag_count ∧ vOps.get_tag_count ≤ INT32_MAX ∧
    d = {
      mReverseMapping := reverseOf vOps.sectionOf vOps.nameOf vOps.tagArray
      mTagToNameMap := mapValues Tag.name vOps.rows
      mTagToSectionMap := mapValues Tag.sectionIndex vOps.rows
      mTagToTypeMap := mapValues Tag.type vOps.rows
      mSections := vOps.sections
      mTagCount := vOps.get_tag_count } := by
  unfold createDescriptorFromOps at h
  split at h
  case isTrue => cases h
  case isFalse hcount =>
    obtain ⟨c, hc, h⟩ := bind_ok h
    obtain ⟨hreported, rfl⟩ := collectTags_ok hc
    refine ⟨hreported, by omega, by omega, ?_⟩
    have hsections : vOps.tagArray.foldl (fun m t => Assoc.insert (vOps.sectionOf t) () m) [] =
        vOps.sections := by
      rw [vendor_tag_ops.sections, ofList, List.foldl_map]
    have hfound : ∀ (g : Nat → String8), ∀ t ∈ vOps.tagArray,
        lookup t (vOps.tagArray.foldl (fun m t => Assoc.insert t (g t) m) []) = some (g t) := by
      intro g t ht
      have hlist := lookup_ofList_map ht g
      rwa [ofList, List.foldl_map] at hlist
    rw [mapTagsOfOps_eq vOps.sectionOf vOps.nameOf vOps.indexOf] at h
    · cases h
      simp only [VendorTagDescriptor.new, hsections, reverseOf, ← foldl_rows]
      rfl
    · intro t ht
      simp only [hsections]
      exact ⟨hfound _ t ht, findIdx_sections ht, hfound _ t ht⟩

theorem mem_rows {q : Nat × Tag} (hq : q ∈ vOps.rows) : q.1 ∈ vOps.tagArray ∧ q.2 = vOps.tagOf q.1 := by
  have hkey : q.1 ∈ vOps.tagArray := by
    have hmem := mem_keys_ofList.mp (List.mem_map_of_mem hq)
    rw [List.map_map] at hmem
    obtain ⟨t, ht, heq⟩ := List.mem_map.mp hmem
    exact heq ▸ ht
  have hlookup := (lookup_eq_some (sorted_ofList _).nodup).mpr hq
  rw [lookup_ofList_map hkey] at hlookup
  exact ⟨hkey, (Option.some.inj hlookup).symm⟩

theorem getElem_sections (ht : t ∈ vOps.tagArray) : ∃ h : vOps.indexOf t < vOps.sections.length,
    vOps.sections[vOps.indexOf t].1 = vOps.sectionOf t := by
  obtain ⟨hlt, heq, -⟩ := List.findIdx?_eq_some_iff_getElem.mp (findIdx_sections ht)
  exact ⟨hlt, of_decide_eq_true heq⟩

theorem tagArray_lt (ht : t ∈ vOps.tagArray) : t < 2 ^ 32 := by
  obtain ⟨tag, -, rfl⟩ := List.mem_map.mp ht
  exact tag.isLt

/-- The getters answer what the module has reported. -/
theorem getters_reported (h : createDescriptorFromOps vOps = .ok d) (ht : t ∈ vOps.tagArray) :
    d.getTagName t = .ok (vOps.nameOf t) ∧ d.getSectionName t = .ok (vOps.sectionOf t) := by
  obtain ⟨-, -, -, rfl⟩ := createDescriptorFromOps_eq h
  have hrow : lookup t vOps.rows = some (vOps.tagOf t) := lookup_ofList_map ht _
  obtain ⟨hlt, hsection⟩ := getElem_sections ht
  refine ⟨?_, ?_⟩
  · simp [VendorTagDescriptor.getTagName, lookup_mapValues, hrow, vendor_tag_ops.tagOf]
  · simp [VendorTagDescriptor.getSectionName, lookup_mapValues, hrow, vendor_tag_ops.tagOf, valueAt, hlt,
      hsection]

theorem createDescriptorFromOps_holds (h : createDescriptorFromOps vOps = .ok d) :
    Holds d vOps.rows vOps.tagArray := by
  obtain ⟨hreported, -, -, heq⟩ := createDescriptorFromOps_eq h
  have hgetters : ∀ t ∈ vOps.tagArray, vOps.sectionOf t = d.sectionOf t ∧ vOps.nameOf t = d.nameOf t := by
    intro t ht
    obtain ⟨hname, hsection⟩ := getters_reported h ht
    refine ⟨by rw [VendorTagDescriptor.sectionOf, hsection], ?_⟩
    unfold VendorTagDescriptor.getTagName at hname
    unfold VendorTagDescriptor.nameOf
    split at hname
    case h_1 => cases hname
    case h_2 name hlookup =>
      cases hname
      rw [hlookup, Option.getD_some]
  have hreverse := reverseOf_congr (fun t ht => (hgetters t ht).1) (fun t ht => (hgetters t ht).2)
  refine ⟨sorted_ofList _, ?_, ?_, ?_, ?_, ?_, ?_, ?_, ?_⟩
  · rw [heq]
  · rw [heq]
  · rw [heq]
  · rw [heq]
    exact sorted_ofList _
  · intro q hq
    obtain ⟨ht, hq⟩ := mem_rows hq
    rw [Legal, hq]
    exact ⟨(hreported _ ht).boundary, tagArray_lt ht, (hreported _ ht).type⟩
  · intro q hq
    obtain ⟨ht, hq⟩ := mem_rows hq
    rw [hq, heq]
    exact (getElem_sections ht).1
  · intro t
    rw [vendor_tag_ops.rows, mem_keys_ofList, List.map_map]
    exact ⟨fun ht => List.mem_map.mpr ⟨t, ht, rfl⟩, fun ht => by
      obtain ⟨u, hu, rfl⟩ := List.mem_map.mp ht
      exact hu⟩
  · rw [← hreverse, heq]

/-- **By name.**  A name and a section are looked up to the last tag of the module's array that
has been reported with them. -/
theorem lookupTag_reported (h : createDescriptorFromOps vOps = .ok d) : d.lookupTag n s = .ok t ↔
    vOps.tagArray.reverse.find?
      (fun t => vOps.get_tag_name t = some n ∧ vOps.get_section_name t = some s) = some t := by
  obtain ⟨hreported, -⟩ := createDescriptorFromOps_eq h
  rw [(createDescriptorFromOps_holds h).lookupTag]
  have hcongr : ∀ t ∈ vOps.tagArray.reverse,
      decide (d.getTagName t = .ok n ∧ d.getSectionName t = .ok s) =
      decide (vOps.get_tag_name t = some n ∧ vOps.get_section_name t = some s) := by
    intro t ht
    have ht := List.mem_reverse.mp ht
    obtain ⟨hname, hsection⟩ := getters_reported h ht
    refine decide_eq_decide.mpr ?_
    rw [hname, hsection, (hreported t ht).name, (hreported t ht).section_name]
    simp
  rw [List.find?_congr hcongr]

/-- Two tags of one name and section, and one of another section. -/
def threeTags : vendor_tag_ops where
  get_tag_count := 3
  get_all_tags := [0x80010001, 0x80000000, 0x80000007]
  get_tag_name := fun _ => some ['g', 'a', 'i', 'n']
  get_section_name := fun t => some (if t = 0x80000000 then ['a', 'f'] else ['i', 's', 'p'])
  get_tag_type := fun _ => 2
  length_eq := fun _ => rfl

theorem lookupTag_reported_three : ∃ d, createDescriptorFromOps threeTags = .ok d ∧
    d.lookupTag ['g', 'a', 'i', 'n'] ['i', 's', 'p'] = .ok 0x80000007 := by
  obtain ⟨d, h⟩ : ∃ d, createDescriptorFromOps threeTags = .ok d := ⟨_, rfl⟩
  exact ⟨d, h, (lookupTag_reported h).mpr (by decide)⟩

end

end MochaHal.Camera.VendorTags
