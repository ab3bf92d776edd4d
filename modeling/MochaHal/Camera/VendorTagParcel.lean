import MochaHal.Camera.VendorTags
import MochaHal.Lib.Parcel
import Mathlib.Data.List.Dedup

/-! The parcel of a descriptor of vendor tags.  `createFromParcel` reads what the parcel holds
(`received`) and sets up its tables from that.  `createFromParcel_sound` says what is accepted,
whoever has written the parcel, and where the index of a section is not one, and
`parcel_round_trip` that the tags of a module arrive as they were sent. -/

namespace MochaHal.Camera.VendorTags
open MochaHal.Assoc MochaHal.Checked MochaHal.Parcel

/-! ## The source -/

section
variable {Word : Type} (p : Format Word)

def writeTag (d : VendorTagDescriptor) (q : Nat × String8) : Except Failure (List Word) := do
  let sectionIndex ← valueFor d.mTagToSectionMap q.1
  let tagType ← valueFor d.mTagToTypeMap q.1
  .ok (p.int32 (.ofNat 32 q.1) ++ p.int32 (.ofInt 32 tagType) ++ p.string8 q.2 ++
    p.int32 (.ofNat 32 sectionIndex))

/-- `writeToParcel`, when the parcel takes all that is written. -/
def writeToParcel (d : VendorTagDescriptor) : Except Failure (List Word) := do
  let tags ← d.mTagToNameMap.mapM (writeTag p d)
  let sections :=
    if 0 < d.mSections.length then
      p.int32 (.ofNat 32 d.mSections.length) ++ d.mSections.flatMap fun s => p.string8 s.1
    else []
  .ok (p.int32 (.ofInt 32 d.mTagCount) ++ tags.flatten ++ sections)

def readInt32 (words : List Word) : Except Failure (BitVec 32 × List Word) :=
  match p.readInt32 words with
  | none => .error (.status NOT_ENOUGH_DATA)
  | some r => .ok r

def readTag (words : List Word) : Except Failure ((Nat × Tag) × List Word) := do
  let (tag, words) ← readInt32 p words
  if tag.toNat < CAMERA_METADATA_VENDOR_TAG_BOUNDARY then .error (.status BAD_VALUE)
  else
    let (tagType, words) ← readInt32 p words
    if tagType.toInt < 0 ∨ NUM_TYPES ≤ tagType.toInt then .error (.status BAD_VALUE)
    else
      let (tagName, words) := p.readString8 words
      if tagName = [] then .error (.status NOT_ENOUGH_DATA)
      else
        let (sectionIndex, words) ← readInt32 p words
        .ok ((tag.toNat, ⟨tagName, tagType.toInt, sectionIndex.toNat⟩), words)

def readSection (words : List Word) : Except Failure (String8 × List Word) :=
  let (sectionName, words) := p.readString8 words
  if sectionName = [] then .error (.status NOT_ENOUGH_DATA) else .ok (sectionName, words)

/-- What the loop of `createFromParcel` over the tags fills. -/
structure Received where
  desc : VendorTagDescriptor
  maxSectionIndex : Nat
  allTags : List Nat

def Received.add (r : Received) (q : Nat × Tag) : Received where
  desc := { r.desc with
    mTagToNameMap := Assoc.insert q.1 q.2.name r.desc.mTagToNameMap
    mTagToSectionMap := Assoc.insert q.1 q.2.sectionIndex r.desc.mTagToSectionMap
    mTagToTypeMap := Assoc.insert q.1 q.2.type r.desc.mTagToTypeMap }
  maxSectionIndex :=
    if q.2.sectionIndex ≤ r.maxSectionIndex then r.maxSectionIndex else q.2.sectionIndex
  allTags := r.allTags ++ [q.1]

def addSection (sections : List (String8 × Unit)) (sectionName : String8) : List (String8 × Unit) :=
  Assoc.insert sectionName () sections

/-- The sections, where there are tags.  `maxSectionIndex + 1` is a `uint32_t`; a capacity of
zero ends the process. -/
def readSections (tagCount : Int) (r : Received) (words : List Word) : Except Failure VendorTagDescriptor :=
  if 0 < tagCount then do
    let (sectionCount, words) ← readInt32 p words
    if sectionCount.toNat < (r.maxSectionIndex + 1) % 2 ^ 32 then .error (.status BAD_VALUE)
    else if sectionCount.toNat = 0 then .error .abort
    else
      let (sections, _) ← readLoop (readSection p) addSection sectionCount.toNat r.desc.mSections words
      .ok { r.desc with mSections := sections }
  else .ok r.desc

/-- The body of the last loop. -/
def mapTag (desc : VendorTagDescriptor) (tag : Nat) : Except Failure VendorTagDescriptor := do
  let index ← valueFor desc.mTagToSectionMap tag
  let sectionString ← valueAt desc.mSections index
  let name ← valueFor desc.mTagToNameMap tag
  .ok { desc with mReverseMapping := addReverse desc.mReverseMapping sectionString name tag }

def createFromParcel (words : List Word) : Except Failure VendorTagDescriptor := do
  let (tagCount, words) ← readInt32 p words
  if tagCount.toInt < 0 then .error (.status BAD_VALUE)
  else
    let desc := { VendorTagDescriptor.new with mTagCount := tagCount.toInt }
    let (r, words) ← readLoop (readTag p) Received.add tagCount.toNat ⟨desc, 0, []⟩ words
    let desc ← readSections p tagCount.toInt r words
    r.allTags.foldlM mapTag desc

end

/-! ## Setting up the reverse mapping again -/

section
variable {d d' : VendorTagDescriptor} {tags : List Nat} {sec name : Nat → String8} {t : Nat}

theorem mapTag_eq {s n : String8} (hsec : d.getSectionName t = .ok s) (hname : d.getTagName t = .ok n) :
    mapTag d t = .ok { d with mReverseMapping := addReverse d.mReverseMapping s n t } := by
  unfold VendorTagDescriptor.getSectionName at hsec
  unfold VendorTagDescriptor.getTagName at hname
  split at hsec
  case h_1 => cases hsec
  case h_2 index hindex =>
    split at hname <;> cases hname
    case h_2 hname =>
      simp only [mapTag, valueFor, hindex, bind, Except.bind, hsec, hname]

theorem mapTag_ok (h : mapTag d t = .ok d') : ∃ s n, d.getSectionName t = .ok s ∧ d.getTagName t = .ok n ∧
    d' = { d with mReverseMapping := addReverse d.mReverseMapping s n t } := by
  obtain ⟨index, hindex, h⟩ := bind_ok h
  obtain ⟨s, hs, h⟩ := bind_ok h
  obtain ⟨n, hn, h⟩ := bind_ok h
  cases h
  refine ⟨s, n, ?_, ?_, rfl⟩
  · unfold valueFor at hindex
    unfold VendorTagDescriptor.getSectionName
    split at hindex <;> cases hindex
    case h_2 hindex => simp only [hindex, hs]
  · unfold valueFor at hn
    unfold VendorTagDescriptor.getTagName
    split at hn <;> cases hn
    case h_2 hn => simp only [hn]

variable (sec name tags) in
theorem mapTags_eq (h : ∀ t ∈ tags, d.getSectionName t = .ok (sec t) ∧ d.getTagName t = .ok (name t)) :
    tags.foldlM mapTag d = .ok { d with
      mReverseMapping := tags.foldl (fun m t => addReverse m (sec t) (name t) t) d.mReverseMapping } := by
  induction tags generalizing d with
  | nil => rfl
  | cons t tags ih =>
    obtain ⟨hsec, hname⟩ := h t List.mem_cons_self
    rw [List.foldlM_cons, mapTag_eq hsec hname]
    exact ih fun u hu => h u (List.mem_cons_of_mem _ hu)

theorem mapTags_keeps (h : tags.foldlM mapTag d = .ok d') :
    d' = { d with mReverseMapping := d'.mReverseMapping } := by
  induction tags generalizing d with
  | nil =>
    cases h
    rfl
  | cons t tags ih =>
    rw [List.foldlM_cons] at h
    obtain ⟨d₁, h₁, h⟩ := bind_ok h
    obtain ⟨s, n, -, -, rfl⟩ := mapTag_ok h₁
    have hrest := ih h
    exact hrest

/-- The loop comes to its end only if each tag has a section and a name. -/
theorem mapTags_ok (h : tags.foldlM mapTag d = .ok d') :
    ∀ t ∈ tags, (∃ s, d.getSectionName t = .ok s) ∧ ∃ n, d.getTagName t = .ok n := by
  induction tags generalizing d with
  | nil => exact fun t ht => (List.not_mem_nil ht).elim
  | cons t tags ih =>
    rw [List.foldlM_cons] at h
    obtain ⟨d₁, h₁, h⟩ := bind_ok h
    obtain ⟨s, n, hsec, hname, rfl⟩ := mapTag_ok h₁
    have hrest := ih h
    exact List.forall_mem_cons.mpr ⟨⟨⟨s, hsec⟩, n, hname⟩, hrest⟩

/-- The loop reads behind the sections exactly if the index of a tag is none of theirs. -/
theorem mapTags_undefined
    (h : ∀ t ∈ tags, ∃ i n, lookup t d.mTagToSectionMap = some i ∧ lookup t d.mTagToNameMap = some n) :
    tags.foldlM mapTag d = .error .undefined ↔
      ∃ t ∈ tags, ∃ i, lookup t d.mTagToSectionMap = some i ∧ d.mSections.length ≤ i := by
  induction tags generalizing d with
  | nil =>
    constructor
    · intro h
      cases h
    · rintro ⟨t, ht, -⟩
      exact absurd ht List.not_mem_nil
  | cons t tags ih =>
    obtain ⟨i, n, hi, hn⟩ := h t List.mem_cons_self
    rw [List.foldlM_cons]
    by_cases hlt : i < d.mSections.length
    · have hstep : mapTag d t = .ok { d with
          mReverseMapping := addReverse d.mReverseMapping d.mSections[i].1 n t } := by
        simp only [mapTag, valueFor, valueAt, hi, hn, List.getElem?_eq_getElem hlt, bind, Except.bind]
      have hrest := ih (d := { d with mReverseMapping := addReverse d.mReverseMapping d.mSections[i].1 n t })
        fun u hu => h u (List.mem_cons_of_mem _ hu)
      rw [hstep]
      refine hrest.trans ?_
      constructor
      · rintro ⟨u, hu, hbehind⟩
        exact ⟨u, List.mem_cons_of_mem _ hu, hbehind⟩
      · rintro ⟨u, hu, j, hj, hle⟩
        rcases List.mem_cons.mp hu with rfl | hu
        · obtain rfl := Option.some.inj (hi.symm.trans hj)
          omega
        · exact ⟨u, hu, j, hj, hle⟩
    · have hstep : mapTag d t = .error .undefined := by
        simp only [mapTag, valueFor, valueAt, hi, List.getElem?_eq_none (not_lt.mp hlt), bind, Except.bind]
      rw [hstep]
      exact ⟨fun _ => ⟨t, List.mem_cons_self, i, hi, not_lt.mp hlt⟩, fun _ => rfl⟩

end

/-! ## Parcels -/

section
variable {Word : Type} {p : Format Word} {d : VendorTagDescriptor} {rows as : List (Nat × Tag)}
  {tags : List Nat}

/-- The tables of a list of tags. -/
def tablesOf (d : VendorTagDescriptor) (rows : List (Nat × Tag)) : VendorTagDescriptor :=
  { d with
    mTagToNameMap := mapValues Tag.name rows
    mTagToSectionMap := mapValues Tag.sectionIndex rows
    mTagToTypeMap := mapValues Tag.type rows }

/-- What the loop over the tags has filled. -/
theorem received_eq (count : Int) (as : List (Nat × Tag)) :
    as.foldl Received.add ⟨{ VendorTagDescriptor.new with mTagCount := count }, 0, []⟩ =
      ⟨tablesOf { VendorTagDescriptor.new with mTagCount := count } (ofList as),
        (as.map (·.2.sectionIndex)).foldl max 0, as.map Prod.fst⟩ := by
  induction as using List.reverseRecOn with
  | nil => rfl
  | append_singleton as q ih =>
    rw [List.foldl_append, ih, ofList_concat]
    simp only [List.foldl_cons, List.foldl_nil, Received.add, tablesOf, insert_mapValues,
      List.map_append, List.map_singleton, List.foldl_append]
    congr 1
    split <;> omega

theorem le_foldl_max (ns : List Nat) (m : Nat) :
    m ≤ ns.foldl max m ∧ ∀ n ∈ ns, n ≤ ns.foldl max m := by
  induction ns generalizing m with
  | nil => exact ⟨le_rfl, fun n hn => (List.not_mem_nil hn).elim⟩
  | cons k ns ih =>
    obtain ⟨hmax, hns⟩ := ih (max m k)
    exact ⟨(Nat.le_max_left m k).trans hmax,
      List.forall_mem_cons.mpr ⟨(Nat.le_max_right m k).trans hmax, hns⟩⟩

theorem foldl_max_lt {ns : List Nat} {m b : Nat} (hm : m < b) (h : ∀ n ∈ ns, n < b) :
    ns.foldl max m < b := by
  induction ns generalizing m with
  | nil => exact hm
  | cons k ns ih =>
    exact ih (max_lt hm (h k List.mem_cons_self)) fun n hn => h n (List.mem_cons_of_mem _ hn)

theorem sections_eq (names : List String8) :
    names.foldl addSection [] = ofList (names.map fun name => (name, ())) := by
  rw [ofList, List.foldl_map]
  rfl

/-! ### What a parcel holds -/

/-- The tags of a parcel and the names of its sections, where they pass the checks. -/
def received (p : Format Word) (words : List Word) : Except Failure (List (Nat × Tag) × List String8) := do
  let (tagCount, words) ← readInt32 p words
  if tagCount.toInt < 0 then .error (.status BAD_VALUE)
  else
    let (as, words) ← readItems (readTag p) tagCount.toNat words
    if 0 < tagCount.toInt then
      let (sectionCount, words) ← readInt32 p words
      if sectionCount.toNat < ((as.map (·.2.sectionIndex)).foldl max 0 + 1) % 2 ^ 32 then
        .error (.status BAD_VALUE)
      else if sectionCount.toNat = 0 then .error .abort
      else
        let (names, _) ← readItems (readSection p) sectionCount.toNat words
        .ok (as, names)
    else .ok (as, [])

/-- The descriptor before its last loop. -/
def tablesFrom (as : List (Nat × Tag)) (names : List String8) : VendorTagDescriptor :=
  { tablesOf { VendorTagDescriptor.new with mTagCount := as.length } (ofList as) with
    mSections := ofList (names.map fun name => (name, ())) }

/-- **Reading, and setting up.** -/
theorem createFromParcel_eq (p : Format Word) (words : List Word) : createFromParcel p words =
    received p words >>= fun r => (r.1.map Prod.fst).foldlM mapTag (tablesFrom r.1 r.2) := by
  unfold createFromParcel received
  cases readInt32 p words with
  | error e => rfl
  | ok r =>
    obtain ⟨tagCount, words₁⟩ := r
    simp only [bind, Except.bind]
    by_cases hneg : tagCount.toInt < 0
    · rw [if_pos hneg, if_pos hneg]
    · rw [if_neg hneg, if_neg hneg, readLoop_items]
      cases hitems : readItems (readTag p) tagCount.toNat words₁ with
      | error e => rfl
      | ok r =>
        obtain ⟨as, words₂⟩ := r
        have hcount : tagCount.toInt = as.length := by
          have hlt := tagCount.isLt
          have hint := BitVec.toInt_eq_toNat_cond tagCount
          rw [(readItems_ok hitems).1]
          split at hint <;> omega
        rw [hcount]
        simp only [Except.map, received_eq, readSections]
        by_cases hpos : 0 < (as.length : Int)
        · rw [if_pos hpos, if_pos hpos]
          cases readInt32 p words₂ with
          | error e => rfl
          | ok r =>
            obtain ⟨sectionCount, words₃⟩ := r
            simp only [bind, Except.bind]
            by_cases hless : sectionCount.toNat < ((as.map (·.2.sectionIndex)).foldl max 0 + 1) % 2 ^ 32
            · rw [if_pos hless, if_pos hless]
            · rw [if_neg hless, if_neg hless]
              by_cases hnone : sectionCount.toNat = 0
              · rw [if_pos hnone, if_pos hnone]
              · rw [if_neg hnone, if_neg hnone, readLoop_items]
                cases readItems (readSection p) sectionCount.toNat words₃ with
                | error e => rfl
                | ok r =>
                  simp only [Except.map]
                  rw [show (tablesOf _ (ofList as)).mSections = [] from rfl, sections_eq]
                  rfl
        · rw [if_neg hpos, if_neg hpos]
          rfl

/-! ### What is accepted -/

/-- A tag that has been read has passed the checks. -/
theorem readTag_ok {words words' : List Word} {q : Nat × Tag} (h : readTag p words = .ok (q, words')) :
    Legal q ∧ q.2.name ≠ [] := by
  obtain ⟨⟨tag, words₁⟩, -, h⟩ := bind_ok h
  simp only at h
  split at h
  case isTrue => cases h
  case isFalse hboundary =>
    obtain ⟨⟨tagType, words₂⟩, -, h⟩ := bind_ok h
    simp only at h
    split at h
    case isTrue => cases h
    case isFalse htype =>
      split at h
      case isTrue => cases h
      case isFalse hname =>
        obtain ⟨⟨sectionIndex, words₃⟩, -, h⟩ := bind_ok h
        cases h
        obtain ⟨hnonneg, hless⟩ := not_or.mp htype
        exact ⟨⟨not_lt.mp hboundary, tag.isLt, not_lt.mp hnonneg, not_le.mp hless⟩, hname⟩

theorem readSection_ok {words words' : List Word} {name : String8}
    (h : readSection p words = .ok (name, words')) : name ≠ [] := by
  unfold readSection at h
  simp only at h
  split at h
  case isTrue => cases h
  case isFalse hne =>
    cases h
    exact hne

/-- What has been received has passed the checks. -/
theorem received_ok {words : List Word} {names : List String8} (h : received p words = .ok (as, names)) :
    (∀ q ∈ as, Legal q ∧ q.2.name ≠ []) ∧ (∀ name ∈ names, name ≠ []) ∧
    (as ≠ [] → ((as.map (·.2.sectionIndex)).foldl max 0 + 1) % 2 ^ 32 ≤ names.length) := by
  obtain ⟨⟨tagCount, words₁⟩, -, h⟩ := bind_ok h
  simp only at h
  split at h
  case isTrue => cases h
  case isFalse hcount =>
    obtain ⟨⟨as', words₂⟩, hitems, h⟩ := bind_ok h
    obtain ⟨hlength, has⟩ := readItems_ok hitems
    have hchecked : ∀ q ∈ as', Legal q ∧ q.2.name ≠ [] := fun q hq => by
      obtain ⟨before, after, hbefore⟩ := has q hq
      exact readTag_ok hbefore
    split at h
    case isFalse hzero =>
      cases h
      have hint := BitVec.toInt_eq_toNat_cond tagCount
      refine ⟨hchecked, fun name hname => absurd hname List.not_mem_nil, fun hne => ?_⟩
      have hpos := List.length_pos_iff.mpr hne
      have hlt := tagCount.isLt
      dsimp only at hpos hzero
      split at hint <;> omega
    case isTrue =>
      obtain ⟨⟨sectionCount, words₃⟩, -, h⟩ := bind_ok h
      simp only at h
      split at h
      case isTrue => cases h
      case isFalse hmax =>
        split at h
        case isTrue => cases h
        case isFalse =>
          obtain ⟨⟨names', words₄⟩, hread, h⟩ := bind_ok h
          obtain ⟨hnames, hnonempty⟩ := readItems_ok hread
          cases h
          refine ⟨hchecked, fun name hname => ?_, fun _ => hnames.symm ▸ not_lt.mp hmax⟩
          obtain ⟨before, after, hbefore⟩ := hnonempty name hname
          exact readSection_ok hbefore

/-- Up to there every check returns a status or ends the process. -/
theorem received_defined (p : Format Word) (words : List Word) : received p words ≠ .error .undefined := by
  have hnumber : ∀ words, readInt32 p words ≠ .error .undefined := by
    intro words h
    unfold readInt32 at h
    split at h <;> cases h
  have htag : ∀ words, readTag p words ≠ .error .undefined := by
    intro words h
    rcases bind_error.mp h with h | ⟨⟨tag, words₁⟩, -, h⟩
    · exact hnumber _ h
    simp only at h
    split at h
    · cases h
    rcases bind_error.mp h with h | ⟨⟨tagType, words₂⟩, -, h⟩
    · exact hnumber _ h
    simp only at h
    split at h
    · cases h
    split at h
    · cases h
    rcases bind_error.mp h with h | ⟨⟨sectionIndex, words₃⟩, -, h⟩
    · exact hnumber _ h
    · cases h
  have hsection : ∀ words, readSection p words ≠ .error .undefined := by
    intro words h
    unfold readSection at h
    simp only at h
    split at h <;> cases h
  intro h
  rcases bind_error.mp h with h | ⟨⟨tagCount, words₁⟩, -, h⟩
  · exact hnumber _ h
  simp only at h
  split at h
  · cases h
  rcases bind_error.mp h with h | ⟨⟨as, words₂⟩, -, h⟩
  · obtain ⟨words', h⟩ := readLoop_error h
    exact htag _ h
  split at h
  case isFalse => cases h
  rcases bind_error.mp h with h | ⟨⟨sectionCount, words₃⟩, -, h⟩
  · exact hnumber _ h
  simp only at h
  split at h
  · cases h
  split at h
  · cases h
  rcases bind_error.mp h with h | ⟨⟨names, words₄⟩, -, h⟩
  · obtain ⟨words', h⟩ := readLoop_error h
    exact hsection _ h
  · cases h

/-- The tables of a list of tags that have all been mapped. -/
theorem holds_of_mapTags {d₁ : VendorTagDescriptor} (h : tags.foldlM mapTag d₁ = .ok d)
    (hd₁ : d₁ = tablesOf d₁ rows) (hnone : d₁.mReverseMapping = []) (hsorted : Sorted rows)
    (hsections : Sorted d₁.mSections) (hkeys : ∀ t, t ∈ tags ↔ t ∈ rows.map Prod.fst)
    (hlegal : ∀ q ∈ rows, Legal q) :
    Holds d rows tags := by
  have hmapped := mapTags_ok h
  have heq := mapTags_eq (d := d₁) _ d₁.sectionOf d₁.nameOf fun t ht =>
    ⟨getSectionName_sectionOf (hmapped t ht).1, getTagName_nameOf (hmapped t ht).2⟩
  rw [h, hnone] at heq
  obtain rfl := Except.ok.inj heq
  have hindex : ∀ q ∈ rows, q.2.sectionIndex < d₁.mSections.length := by
    intro q hq
    obtain ⟨⟨s, hs⟩, -⟩ := hmapped q.1 ((hkeys q.1).mpr (List.mem_map_of_mem hq))
    have hrow : lookup q.1 rows = some q.2 := (lookup_eq_some hsorted.nodup).mpr hq
    unfold VendorTagDescriptor.getSectionName at hs
    rw [hd₁] at hs
    simp only [tablesOf, lookup_mapValues, hrow, Option.map_some, valueAt] at hs
    by_contra hge
    rw [List.getElem?_eq_none (not_lt.mp hge)] at hs
    cases hs
  exact {
    sorted := hsorted
    names := by rw [hd₁]; rfl
    sectionMap := by rw [hd₁]; rfl
    types := by rw [hd₁]; rfl
    sections := hsections
    legal := hlegal
    index := hindex
    keys := hkeys
    reverse := rfl }

/-- **What is accepted.**  Its tables are those of one list of tags, each of which has passed
the checks and has a section. -/
theorem createFromParcel_holds {words : List Word} (h : createFromParcel p words = .ok d) :
    ∃ rows tags, Holds d rows tags ∧ (∀ q ∈ rows, q.2.name ≠ []) ∧ ∀ q ∈ d.mSections, q.1 ≠ [] := by
  rw [createFromParcel_eq] at h
  obtain ⟨⟨as, names⟩, hreceived, h⟩ := bind_ok h
  obtain ⟨hchecked, hnames, -⟩ := received_ok hreceived
  have hrows : ∀ q ∈ ofList as, q ∈ as := fun q hq => mem_of_mem_ofList hq
  refine ⟨ofList as, as.map Prod.fst, holds_of_mapTags h rfl rfl (sorted_ofList _) (sorted_ofList _)
    (fun t => mem_keys_ofList.symm) fun q hq => (hchecked q (hrows q hq)).1,
    fun q hq => (hchecked q (hrows q hq)).2, fun q hq => ?_⟩
  rw [mapTags_keeps h] at hq
  obtain ⟨name, hname, rfl⟩ := List.mem_map.mp (mem_of_mem_ofList hq)
  exact hnames name hname

/-! ### The round trip -/

def encodeTag (p : Format Word) (q : Nat × Tag) : List Word :=
  p.int32 (.ofNat 32 q.1) ++ p.int32 (.ofInt 32 q.2.type) ++ p.string8 q.2.name ++
    p.int32 (.ofNat 32 q.2.sectionIndex)

def encodeSections (p : Format Word) (sections : List (String8 × Unit)) : List Word :=
  if 0 < sections.length then
    p.int32 (.ofNat 32 sections.length) ++ sections.flatMap fun s => p.string8 s.1
  else []

theorem writeToParcel_eq (p : Format Word) (h : Holds d rows tags) : writeToParcel p d = .ok
    (p.int32 (.ofInt 32 d.mTagCount) ++ rows.flatMap (encodeTag p) ++ encodeSections p d.mSections) := by
  have htags : d.mTagToNameMap.mapM (writeTag p d) = .ok (rows.map (encodeTag p)) := by
    rw [h.names, mapValues, List.mapM_map]
    refine mapM_ok fun q hq => ?_
    show writeTag p d (q.1, q.2.name) = _
    obtain ⟨-, hsection, htype⟩ := h.lookup hq
    simp only [writeTag, valueFor, hsection, htype, bind, Except.bind]
    rfl
  simp only [writeToParcel, htags, bind, Except.bind]
  rw [List.flatMap_def]
  rfl

/-- What a descriptor needs to arrive. -/
structure Sendable (d : VendorTagDescriptor) (rows : List (Nat × Tag)) : Prop where
  count : d.mTagCount = rows.length
  small : rows.length ≤ INT32_MAX
  names : ∀ q ∈ rows, q.2.name ≠ [] ∧ q.2.name.length < INT32_MAX
  sectionNames : ∀ q ∈ d.mSections, q.1 ≠ [] ∧ q.1.length < INT32_MAX
  sectionCount : d.mSections.length < 2 ^ 32
  empty : rows = [] → d.mSections = []

theorem readTag_encodeTag (hp : p.Documented) (h : Holds d rows tags) (hs : Sendable d rows)
    {q : Nat × Tag} (hq : q ∈ rows) (rest : List Word) :
    readTag p (encodeTag p q ++ rest) = .ok (q, rest) := by
  obtain ⟨hboundary, htag, hnonneg, htype⟩ := h.legal q hq
  obtain ⟨hname, hshort⟩ := hs.names q hq
  have hindex := (h.index q hq).trans hs.sectionCount
  have htagNat : (BitVec.ofNat 32 q.1).toNat = q.1 := by
    rw [BitVec.toNat_ofNat, Nat.mod_eq_of_lt htag]
  have hindexNat : (BitVec.ofNat 32 q.2.sectionIndex).toNat = q.2.sectionIndex := by
    rw [BitVec.toNat_ofNat, Nat.mod_eq_of_lt hindex]
  have htypeInt : (BitVec.ofInt 32 q.2.type).toInt = q.2.type := by
    unfold NUM_TYPES at htype
    rw [BitVec.toInt_ofInt]
    exact Int.bmod_eq_of_le (by omega) (by omega)
  unfold readTag encodeTag
  simp only [List.append_assoc, readInt32, hp.readInt32, bind, Except.bind, htagNat, htypeInt,
    hp.readString8 _ _ hshort, hindexNat]
  rw [if_neg hboundary.not_gt, if_neg (not_or.mpr ⟨hnonneg.not_gt, htype.not_ge⟩), if_neg hname]

theorem readSections_encodeSections (hp : p.Documented) {r : Received} (hr : r.desc.mSections = [])
    (hsorted : Sorted d.mSections) (hs : Sendable d rows) (hne : rows ≠ [])
    (hmax : r.maxSectionIndex < d.mSections.length) (rest : List Word) :
    readSections p rows.length r (encodeSections p d.mSections ++ rest) =
      .ok { r.desc with mSections := d.mSections } := by
  have hpos : 0 < rows.length := List.length_pos_iff.mpr hne
  have hcount : (BitVec.ofNat 32 d.mSections.length).toNat = d.mSections.length := by
    rw [BitVec.toNat_ofNat, Nat.mod_eq_of_lt hs.sectionCount]
  have hwrap : (r.maxSectionIndex + 1) % 2 ^ 32 ≤ d.mSections.length := by
    have := Nat.mod_le (r.maxSectionIndex + 1) (2 ^ 32)
    omega
  have hread : readLoop (readSection p) addSection d.mSections.length r.desc.mSections
      ((d.mSections.flatMap fun s => p.string8 s.1) ++ rest) = .ok (d.mSections, rest) := by
    have hflat : (d.mSections.flatMap fun s => p.string8 s.1) =
        (d.mSections.map Prod.fst).flatMap p.string8 := by
      rw [List.flatMap_map]
    have hloop := readLoop_write (readSection p) addSection p.string8
      (d.mSections.map Prod.fst) (fun name hname rest => by
        obtain ⟨q, hq, rfl⟩ := List.mem_map.mp hname
        obtain ⟨hne, hshort⟩ := hs.sectionNames q hq
        simp only [readSection, hp.readString8 _ _ hshort, if_neg hne]) [] rest
    rw [List.length_map, sections_eq, List.map_map] at hloop
    rw [hflat, hr, hloop]
    rw [show d.mSections.map ((fun name => (name, ())) ∘ Prod.fst) = d.mSections from List.map_id _,
      ofList_eq hsorted]
  unfold readSections encodeSections
  rw [if_pos (by omega), if_pos (by omega)]
  simp only [List.append_assoc, readInt32, hp.readInt32, bind, Except.bind, hcount]
  rw [if_neg (by omega), if_neg (by omega), hread]

/-- **A descriptor arrives**, with a reverse mapping that is set up in the order of the tags. -/
theorem createFromParcel_encode (hp : p.Documented) (h : Holds d rows tags) (hs : Sendable d rows)
    (rest : List Word) : createFromParcel p
      (p.int32 (.ofInt 32 d.mTagCount) ++ rows.flatMap (encodeTag p) ++
        encodeSections p d.mSections ++ rest) =
      .ok { d with mReverseMapping := reverseOf d.sectionOf d.nameOf (rows.map Prod.fst) } := by
  have hsmall : rows.length < 2 ^ 31 := Nat.lt_of_le_of_lt hs.small (by decide)
  have hcountInt : (BitVec.ofInt 32 d.mTagCount).toInt = rows.length := by
    rw [hs.count, BitVec.toInt_ofInt]
    exact Int.bmod_eq_of_le (by omega) (by omega)
  have hcountNat : (BitVec.ofInt 32 d.mTagCount).toNat = rows.length := by
    rw [hs.count, BitVec.ofInt_natCast, BitVec.toNat_ofNat, Nat.mod_eq_of_lt (by omega)]
  have hread := readLoop_write (readTag p) Received.add (encodeTag p)
    rows (fun q hq rest => readTag_encodeTag hp h hs hq rest)
    ⟨{ VendorTagDescriptor.new with mTagCount := rows.length }, 0, []⟩
    (encodeSections p d.mSections ++ rest)
  rw [received_eq, ofList_eq h.sorted] at hread
  have htables : { tablesOf { VendorTagDescriptor.new with mTagCount := rows.length } rows with
      mSections := d.mSections } = { d with mReverseMapping := [] } := by
    rw [tablesOf, ← h.names, ← h.sectionMap, ← h.types, ← hs.count]
    rfl
  have hsections : readSections p rows.length
      ⟨tablesOf { VendorTagDescriptor.new with mTagCount := rows.length } rows,
        (rows.map (·.2.sectionIndex)).foldl max 0, rows.map Prod.fst⟩
      (encodeSections p d.mSections ++ rest) = .ok { d with mReverseMapping := [] } := by
    by_cases hne : rows = []
    · rw [← htables, hs.empty hne, hne]
      rfl
    · rw [← htables]
      obtain ⟨q, hq⟩ := List.exists_mem_of_ne_nil rows hne
      have hpos : 0 < d.mSections.length := (Nat.zero_le _).trans_lt (h.index q hq)
      refine readSections_encodeSections hp rfl h.sections hs hne ?_ rest
      refine foldl_max_lt hpos fun n hn => ?_
      obtain ⟨q, hq, rfl⟩ := List.mem_map.mp hn
      exact h.index q hq
  have hmap := mapTags_eq (d := { d with mReverseMapping := [] }) (rows.map Prod.fst) d.sectionOf
    d.nameOf fun t ht => by
      have ht := (h.keys t).mpr ht
      exact ⟨(h.sectionOf_iff ht).mp rfl, (h.nameOf_iff ht).mp rfl⟩
  simp only [createFromParcel, List.append_assoc, readInt32, hp.readInt32, bind, Except.bind, hcountInt,
    hcountNat]
  rw [if_neg (by omega), hread]
  simp only [hsections]
  exact hmap

/-! ### What maintainers rely on -/

/-- What a reader of a descriptor relies on. -/
structure Sound (d : VendorTagDescriptor) : Prop where
  tag : ∀ t ∈ d.mTagToNameMap.map Prod.fst, CAMERA_METADATA_VENDOR_TAG_BOUNDARY ≤ t ∧
    (∃ n, d.getTagName t = .ok n ∧ n ≠ []) ∧ (∃ s, d.getSectionName t = .ok s ∧ s ≠ []) ∧
    ∃ type, d.getTagType t = .ok type ∧ 0 ≤ type ∧ type < NUM_TYPES
  names : ∀ n s t, d.lookupTag n s = .ok t → d.getTagName t = .ok n ∧ d.getSectionName t = .ok s
  found : ∀ n s t, d.getTagName t = .ok n → d.getSectionName t = .ok s → ∃ u, d.lookupTag n s = .ok u

/-- The sections are stored without the repetitions. -/
theorem length_sections (names : List String8) :
    (ofList (names.map fun name => (name, ()))).length = names.dedup.length := by
  have hkeys := (sorted_ofList (names.map fun name => (name, ()))).nodup
  have hperm : ((ofList (names.map fun name => (name, ()))).map Prod.fst).Perm names.dedup := by
    refine (List.perm_ext_iff_of_nodup hkeys names.nodup_dedup).mpr fun name => ?_
    rw [mem_keys_ofList, List.map_map, List.mem_dedup]
    simp
  rw [← hperm.length_eq, List.length_map]

theorem tablesFrom_lookup (names : List String8) {t : Nat} (ht : t ∈ as.map Prod.fst) :
    ∃ q ∈ ofList as, q.1 = t ∧ lookup t (tablesFrom as names).mTagToSectionMap = some q.2.sectionIndex ∧
      lookup t (tablesFrom as names).mTagToNameMap = some q.2.name := by
  obtain ⟨q, hq, rfl⟩ := List.mem_map.mp (mem_keys_ofList.mpr ht)
  have hrow : lookup q.1 (ofList as) = some q.2 := (lookup_eq_some (sorted_ofList as).nodup).mpr hq
  refine ⟨q, hq, rfl, ?_, ?_⟩
  · simp only [tablesFrom, tablesOf, lookup_mapValues, hrow, Option.map_some]
  · simp only [tablesFrom, tablesOf, lookup_mapValues, hrow, Option.map_some]

/-- The last loop reads behind the sections. -/
theorem mapTags_tablesFrom (as : List (Nat × Tag)) (names : List String8) :
    (as.map Prod.fst).foldlM mapTag (tablesFrom as names) = .error .undefined ↔
      ∃ q ∈ ofList as, names.dedup.length ≤ q.2.sectionIndex := by
  rw [mapTags_undefined fun t ht => by
    obtain ⟨q, -, -, hindex, hname⟩ := tablesFrom_lookup names ht
    exact ⟨_, _, hindex, hname⟩]
  rw [show (tablesFrom as names).mSections.length = _ from length_sections names]
  constructor
  · rintro ⟨t, ht, i, hi, hle⟩
    obtain ⟨q, hq, -, hindex, -⟩ := tablesFrom_lookup names ht
    obtain rfl := Option.some.inj (hi.symm.trans hindex)
    exact ⟨q, hq, hle⟩
  · rintro ⟨q, hq, hle⟩
    have ht : q.1 ∈ as.map Prod.fst := mem_keys_ofList.mp (List.mem_map_of_mem hq)
    obtain ⟨q', hq', hkey, hindex, -⟩ := tablesFrom_lookup names ht
    have hrow := (lookup_eq_some (sorted_ofList as).nodup).mpr hq
    have hrow' := (lookup_eq_some (sorted_ofList as).nodup).mpr hq'
    rw [hkey, hrow, Option.some.injEq] at hrow'
    exact ⟨q.1, ht, _, hindex, hrow' ▸ hle⟩

theorem sound_of_accepted {words : List Word} (h : createFromParcel p words = .ok d) : Sound d := by
  obtain ⟨rows, tags, hholds, hnames, hsections⟩ := createFromParcel_holds h
  refine ⟨fun t ht => ?_, fun n s t hlookup => ?_, fun n s t hn hs => ?_⟩
  · rw [hholds.names, mapValues, List.map_map] at ht
    obtain ⟨⟨t, tag⟩, hrow, rfl⟩ := List.mem_map.mp ht
    obtain ⟨hname, htype, q, hq, -, hsection⟩ := hholds.getters hrow
    obtain ⟨hboundary, -, hlegal⟩ := hholds.legal _ hrow
    exact ⟨hboundary, ⟨_, hname, hnames _ hrow⟩, ⟨_, hsection, hsections q hq⟩, _, htype, hlegal⟩
  · have hfind := List.find?_some (hholds.lookupTag.mp hlookup)
    exact of_decide_eq_true hfind
  · have hmem := List.mem_reverse.mpr (hholds.mem_of_name hn)
    have hsome : (tags.reverse.find? fun t =>
        d.getTagName t = .ok n ∧ d.getSectionName t = .ok s).isSome := by
      rw [List.find?_isSome]
      exact ⟨t, hmem, by simp [hn, hs]⟩
    obtain ⟨u, hu⟩ := Option.isSome_iff_exists.mp hsome
    exact ⟨u, hholds.lookupTag.mpr hu⟩

/-- **Only sound descriptors are accepted**, whoever has written the parcel, as long as nothing
behind the stored sections is read: the check compares the indices with the number of sections
that the parcel announces, and of equal names one is stored.  So it is enough where the names
are distinct, and no index is the one whose successor wraps. -/
theorem createFromParcel_sound (p : Format Word) (words : List Word) :
    (∀ d, createFromParcel p words = .ok d → Sound d) ∧
    (createFromParcel p words = .error .undefined ↔ ∃ as names, received p words = .ok (as, names) ∧
      ∃ q ∈ ofList as, names.dedup.length ≤ q.2.sectionIndex) ∧
    ∀ as names, received p words = .ok (as, names) → names.Nodup →
      (∀ q ∈ as, q.2.sectionIndex + 1 < 2 ^ 32) → createFromParcel p words ≠ .error .undefined := by
  have hundefined : createFromParcel p words = .error .undefined ↔ ∃ as names,
      received p words = .ok (as, names) ∧ ∃ q ∈ ofList as, names.dedup.length ≤ q.2.sectionIndex := by
    rw [createFromParcel_eq, bind_error, or_iff_right (received_defined p words)]
    constructor
    · rintro ⟨⟨as, names⟩, hreceived, h⟩
      exact ⟨as, names, hreceived, (mapTags_tablesFrom as names).mp h⟩
    · rintro ⟨as, names, hreceived, h⟩
      exact ⟨(as, names), hreceived, (mapTags_tablesFrom as names).mpr h⟩
  refine ⟨fun d => sound_of_accepted, hundefined, fun as names hreceived hnodup hindices h => ?_⟩
  obtain ⟨as', names', hreceived', q, hq, hle⟩ := hundefined.mp h
  cases hreceived.symm.trans hreceived'
  have hmem := mem_of_mem_ofList hq
  have hbound := (received_ok hreceived).2.2 (List.ne_nil_of_mem hmem)
  have hmax := (le_foldl_max (as.map (·.2.sectionIndex)) 0).2 q.2.sectionIndex
    (List.mem_map.mpr ⟨q, hmem, rfl⟩)
  have hall : (as.map (·.2.sectionIndex)).foldl max 0 < 2 ^ 32 - 1 :=
    foldl_max_lt (by decide) fun n hn => by
      obtain ⟨q, hq, rfl⟩ := List.mem_map.mp hn
      have := hindices q hq
      omega
  rw [hnodup.dedup] at hle
  rw [Nat.mod_eq_of_lt (by omega)] at hbound
  omega

theorem sendable_of_ops {vOps : vendor_tag_ops} (h : createDescriptorFromOps vOps = .ok d)
    (hnodup : vOps.get_all_tags.Nodup)
    (hnames : ∀ t ∈ vOps.tagArray, vOps.nameOf t ≠ [] ∧ (vOps.nameOf t).length < INT32_MAX)
    (hsections : ∀ t ∈ vOps.tagArray, vOps.sectionOf t ≠ [] ∧ (vOps.sectionOf t).length < INT32_MAX) :
    Sendable d vOps.rows := by
  obtain ⟨-, hnonneg, hmax, rfl⟩ := createDescriptorFromOps_eq h
  have htags : vOps.tagArray.Nodup := hnodup.map fun a b hab => BitVec.eq_of_toNat_eq hab
  have hlength : (vOps.tagArray.length : Int) = vOps.get_tag_count := by
    rw [vendor_tag_ops.tagArray, List.length_map, vOps.length_eq hnonneg]
  have hrows : vOps.rows.length = vOps.tagArray.length := by
    rw [vendor_tag_ops.rows, length_ofList, List.length_map]
    simpa [List.map_map, Function.comp_def] using htags
  have hempty : vOps.rows = [] → vOps.sections = [] := fun hnil => by
    rw [hnil] at hrows
    rw [vendor_tag_ops.sections, List.length_eq_zero_iff.mp hrows.symm]
    rfl
  have hcount : vOps.sections.length ≤ vOps.tagArray.length := by
    simpa [vendor_tag_ops.sections] using
      length_ofList_le (vOps.tagArray.map fun t => (vOps.sectionOf t, ()))
  have hsmall : vOps.tagArray.length ≤ INT32_MAX := by omega
  refine ⟨by rw [hrows, hlength], hrows ▸ hsmall, fun q hq => ?_, fun q hq => ?_,
    hcount.trans_lt (hsmall.trans_lt (by decide)), hempty⟩
  · obtain ⟨ht, hq⟩ := mem_rows hq
    rw [hq]
    exact hnames _ ht
  · obtain ⟨t, ht, rfl⟩ := List.mem_map.mp (mem_of_mem_ofList hq)
    exact hsections t ht

/-- **The round trip.**  The tags of a module, distinct and with names and sections that are not
empty, arrive as they were sent, whatever follows them in the parcel.  Of two tags that share
their section and name the greater one is found then, so that the lookups are the same too if
no two do. -/
theorem parcel_round_trip (hp : p.Documented) {vOps : vendor_tag_ops}
    (h : createDescriptorFromOps vOps = .ok d) (hnodup : vOps.get_all_tags.Nodup)
    (hnames : ∀ t ∈ vOps.tagArray, vOps.nameOf t ≠ [] ∧ (vOps.nameOf t).length < INT32_MAX)
    (hsections : ∀ t ∈ vOps.tagArray, vOps.sectionOf t ≠ [] ∧ (vOps.sectionOf t).length < INT32_MAX) :
    ∃ words d', writeToParcel p d = .ok words ∧ (∀ rest, createFromParcel p (words ++ rest) = .ok d') ∧
      d' = { d with mReverseMapping := d'.mReverseMapping } ∧
      (∀ n s t, d'.lookupTag n s = .ok t ↔ IsGreatest {t | t ∈ vOps.tagArray ∧
        vOps.get_tag_name t = some n ∧ vOps.get_section_name t = some s} t) ∧
      ((∀ t ∈ vOps.tagArray, ∀ u ∈ vOps.tagArray, vOps.get_tag_name t = vOps.get_tag_name u →
        vOps.get_section_name t = vOps.get_section_name u → t = u) → d' = d) := by
  have hholds := createDescriptorFromOps_holds h
  have hsent := sendable_of_ops h hnodup hnames hsections
  obtain ⟨hreported, -⟩ := createDescriptorFromOps_eq h
  refine ⟨_, _, writeToParcel_eq p hholds, createFromParcel_encode hp hholds hsent, rfl, ?_⟩
  generalize hd' : ({ d with mReverseMapping := reverseOf d.sectionOf d.nameOf (vOps.rows.map Prod.fst) } :
    VendorTagDescriptor) = d'
  have harrived : Holds d' vOps.rows (vOps.rows.map Prod.fst) := by
    rw [← hd']
    exact { hholds with keys := fun _ => Iff.rfl, reverse := rfl }
  have hset : ∀ n s, {t | t ∈ vOps.rows.map Prod.fst ∧
      decide (d'.getTagName t = .ok n ∧ d'.getSectionName t = .ok s) = true} =
      {t | t ∈ vOps.tagArray ∧ vOps.get_tag_name t = some n ∧ vOps.get_section_name t = some s} := by
    intro n s
    ext t
    rw [Set.mem_ofPred_eq, Set.mem_ofPred_eq, ← hholds.keys]
    refine and_congr_right fun ht => ?_
    obtain ⟨hname, hsection⟩ := getters_reported h ht
    have hname' : d'.getTagName t = .ok (vOps.nameOf t) := hd' ▸ hname
    have hsection' : d'.getSectionName t = .ok (vOps.sectionOf t) := hd' ▸ hsection
    rw [decide_eq_true_iff, hname', hsection', (hreported t ht).name, (hreported t ht).section_name]
    simp
  have hlookup : ∀ n s t, d'.lookupTag n s = .ok t ↔ IsGreatest {t | t ∈ vOps.tagArray ∧
      vOps.get_tag_name t = some n ∧ vOps.get_section_name t = some s} t := by
    intro n s t
    rw [harrived.lookupTag, ← hset]
    exact find_reverse_iff (List.pairwise_map.mpr hholds.sorted)
  refine ⟨hlookup, fun hdistinct => ?_⟩
  have hunique : ∀ n s t, d'.lookupTag n s = .ok t ↔ d.lookupTag n s = .ok t := by
    intro n s t
    rw [hlookup, lookupTag_reported h]
    have hmem : ∀ {u}, vOps.tagArray.reverse.find? (fun t => vOps.get_tag_name t = some n ∧
        vOps.get_section_name t = some s) = some u → u ∈ {t | t ∈ vOps.tagArray ∧
        vOps.get_tag_name t = some n ∧ vOps.get_section_name t = some s} := fun hu =>
      ⟨List.mem_reverse.mp (List.mem_of_find?_eq_some hu), by simpa using List.find?_some hu⟩
    have hsame : ∀ {u v}, u ∈ {t | t ∈ vOps.tagArray ∧ vOps.get_tag_name t = some n ∧
        vOps.get_section_name t = some s} → v ∈ {t | t ∈ vOps.tagArray ∧
        vOps.get_tag_name t = some n ∧ vOps.get_section_name t = some s} → u = v := fun hu hv =>
      hdistinct _ hu.1 _ hv.1 (hu.2.1.trans hv.2.1.symm) (hu.2.2.trans hv.2.2.symm)
    refine ⟨fun ht => ?_, fun ht => ⟨hmem ht, fun u hu => (hsame hu (hmem ht)).le⟩⟩
    have hsome : (vOps.tagArray.reverse.find? fun t => vOps.get_tag_name t = some n ∧
        vOps.get_section_name t = some s).isSome := by
      rw [List.find?_isSome]
      exact ⟨t, List.mem_reverse.mpr ht.1.1, decide_eq_true ht.1.2⟩
    obtain ⟨u, hu⟩ := Option.isSome_iff_exists.mp hsome
    rw [hu, hsame (hmem hu) ht.1]
  have hreverse : d'.mReverseMapping = d.mReverseMapping := by
    rw [harrived.reverse, hholds.reverse]
    refine (nested_reverseOf _ _ _).ext (nested_reverseOf _ _ _) fun s n => ?_
    rw [← harrived.reverse, ← hholds.reverse]
    refine Option.ext fun t => ?_
    rw [← lookupTag_ok, ← lookupTag_ok]
    exact hunique n s t
  rw [← hd'] at hreverse ⊢
  rw [show reverseOf d.sectionOf d.nameOf (vOps.rows.map Prod.fst) = d.mReverseMapping from hreverse]

end

/-! ### A parcel of words -/

/-- A word for each number and each character, and one behind a text. -/
def wordFormat : Format (BitVec 32) where
  int32 v := [v]
  string8 s := .ofNat 32 s.length :: if s = [] then [] else s.map (fun c => .ofNat 32 c.toNat) ++ [0]
  readInt32
    | [] => none
    | v :: rest => some (v, rest)
  readString8
    | [] => ([], [])
    | v :: rest =>
      if 0 < v.toInt ∧ v.toNat < INT32_MAX ∧ v.toNat < rest.length then
        ((rest.take v.toNat).map fun w => Char.ofNat w.toNat, rest.drop (v.toNat + 1))
      else ([], rest)

theorem wordFormat_documented : wordFormat.Documented where
  readInt32 _ _ := rfl
  readString8 s rest hs := by
    have hlength : (BitVec.ofNat 32 s.length).toNat = s.length := by
      unfold INT32_MAX at hs
      rw [BitVec.toNat_ofNat, Nat.mod_eq_of_lt (by omega)]
    have hlengthInt : (BitVec.ofNat 32 s.length).toInt = s.length := by
      unfold INT32_MAX at hs
      rw [BitVec.toInt_eq_toNat_of_lt (by omega), hlength]
    have hchar : ∀ c : Char, Char.ofNat (BitVec.ofNat 32 c.toNat).toNat = c := by
      intro c
      have hlt : c.toNat < 2 ^ 32 := c.val.toBitVec.isLt
      rw [BitVec.toNat_ofNat, Nat.mod_eq_of_lt hlt, Char.ofNat_toNat]
    by_cases hne : s = []
    · subst hne
      rfl
    · have hpos := List.length_pos_iff.mpr hne
      simp only [wordFormat, if_neg hne, List.cons_append, hlength, hlengthInt]
      rw [if_pos (by simp; omega)]
      have hmap : (s.map fun c => BitVec.ofNat 32 c.toNat).length = s.length := List.length_map _
      congr 1
      · rw [List.append_assoc, List.take_left' hmap, List.map_map]
        exact (List.map_congr_left fun c _ => hchar c).trans (List.map_id _)
      · rw [List.drop_left' (by simp)]

/-- Two tags, not in their order. -/
def twoTags : vendor_tag_ops where
  get_tag_count := 2
  get_all_tags := [0x80010001, 0x80000000]
  get_tag_name := fun t => some (if t = 0x80000000 then ['m', 'o', 'd', 'e'] else ['g', 'a', 'i', 'n'])
  get_section_name := fun t => some (if t = 0x80000000 then ['a', 'f'] else ['i', 's', 'p'])
  get_tag_type := fun _ => 2
  length_eq := fun _ => rfl

theorem parcel_round_trip_two : ∃ d words, createDescriptorFromOps twoTags = .ok d ∧
    writeToParcel wordFormat d = .ok words ∧
    ∀ rest, createFromParcel wordFormat (words ++ rest) = .ok d := by
  obtain ⟨d, h⟩ : ∃ d, createDescriptorFromOps twoTags = .ok d := ⟨_, rfl⟩
  obtain ⟨words, d', hwritten, hread, -, -, hsame⟩ :=
    parcel_round_trip wordFormat_documented h (by decide) (by decide) (by decide)
  obtain rfl := hsame (by decide)
  exact ⟨_, words, h, hwritten, hread⟩

/-- A parcel with more sections than it has use for, and one that names a section twice. -/
theorem createFromParcel_sound_spare :
    (∃ d, d.mSections.length = 2 ∧ d.getSectionName 0x80000003 = .ok ['b'] ∧ Sound d) ∧
    createFromParcel wordFormat [1, 0x80000003, 0, 1, 0x67, 0, 1, 2, 1, 0x61, 0, 1, 0x61, 0] =
      .error .undefined := by
  constructor
  · obtain ⟨d, hd, hsections, hsection⟩ : ∃ d, createFromParcel wordFormat
        [1, 0x80000003, 0, 1, 0x67, 0, 1, 2, 1, 0x61, 0, 1, 0x62, 0, 9] = .ok d ∧
        d.mSections.length = 2 ∧ d.getSectionName 0x80000003 = .ok ['b'] := ⟨_, rfl, rfl, rfl⟩
    exact ⟨d, hsections, hsection, (createFromParcel_sound _ _).1 _ hd⟩
  · exact (createFromParcel_sound _ _).2.1.mpr
      ⟨[(0x80000003, ⟨['g'], 0, 1⟩)], [['a'], ['a']], rfl, _, List.mem_singleton.mpr rfl, by decide⟩

end MochaHal.Camera.VendorTags
