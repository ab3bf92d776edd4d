import MochaHal.Camera.Metadata

/-! What the calls of `libmocha/camera/CameraMetadata.cpp` do to the buffer of their object.
`Change` lists it; each function of the source makes one change, and a change hits no buffer
of another owner. -/

namespace MochaHal.Camera.Metadata
open Function

variable {ι β δ : Type} [DecidableEq ι] {lib : Library β δ} {s s' : Sys ι β} {i j : ι} {a : Nat} {b src : β}
  {v : Option β} {lost mem : Bool}

/-! ## What a call does to its object -/

def Sys.content (s : Sys ι β) (i : ι) : Option β := (s.mBuffer i).bind s.buffer

/-- Each buffer is there, and has one owner. -/
structure Sound (s : Sys ι β) : Prop where
  fresh : ∀ a, s.next ≤ a → s.buffer a = none
  live : ∀ i a, s.mBuffer i = some a → s.buffer a ≠ none
  alone : ∀ i j a, s.mBuffer i = some a → s.mBuffer j = some a → i = j
  given : ∀ a, s.client a = true → s.buffer a ≠ none
  apart : ∀ i a, s.mBuffer i = some a → s.client a = false

omit [DecidableEq ι] in
theorem sound_start : Sound (Sys.start : Sys ι β) :=
  ⟨fun _ _ => rfl, fun _ _ h => (nomatch h), fun _ _ _ h => (nomatch h), fun _ h => (nomatch h),
    fun _ _ h => (nomatch h)⟩

omit [DecidableEq ι] in
theorem Sound.lt_next (h : Sound s) (ha : s.buffer a ≠ none) : a < s.next :=
  Nat.lt_of_not_le fun hle => ha (h.fresh a hle)

/-- The buffer of an object is freed. -/
def Sys.dropped (s : Sys ι β) (i : ι) (a : Nat) : Sys ι β :=
  { s with buffer := Function.update s.buffer a none, mBuffer := Function.update s.mBuffer i none }

/-- It is freed for a new one. -/
def Sys.replaced (s : Sys ι β) (i : ι) (a : Nat) (b : β) : Sys ι β :=
  { s with
    buffer := Function.update (Function.update s.buffer s.next (some b)) a none
    mBuffer := Function.update s.mBuffer i (some s.next)
    next := s.next + 1 }

def Sys.filled (s : Sys ι β) (i : ι) (b : β) : Sys ι β := (s.alloc b).setBuffer i (some s.next)

/-- What a call may do to its object: the content behind it, and whether a buffer is lost. -/
inductive Change (s : Sys ι β) (i : ι) : Option β → Bool → Sys ι β → Prop
  | same : Change s i (s.content i) false s
  | wrote {a : Nat} (b : β) (h : s.mBuffer i = some a) : Change s i (some b) false (s.write a b)
  | dropped {a : Nat} (h : s.mBuffer i = some a) : Change s i none false (s.dropped i a)
  | lost {a : Nat} (h : s.mBuffer i = some a) : Change s i none true (s.setBuffer i none)
  | filled (b : β) (h : s.mBuffer i = none) : Change s i (some b) false (s.filled i b)
  | replaced {a : Nat} (b : β) (h : s.mBuffer i = some a) : Change s i (some b) false (s.replaced i a b)

/-- No owner has the buffer, and it is not freed. -/
def Sys.leaked (s : Sys ι β) (a : Nat) : Prop :=
  s.buffer a ≠ none ∧ (∀ i, s.mBuffer i ≠ some a) ∧ s.client a = false

theorem Change.others (hc : Change s i v lost s') : (∀ j, j ≠ i → s'.mBuffer j = s.mBuffer j) ∧
    s'.client = s.client ∧ s'.mLocked = s.mLocked := by
  cases hc with
  | same => exact ⟨fun _ _ => rfl, rfl, rfl⟩
  | wrote => exact ⟨fun _ _ => rfl, rfl, rfl⟩
  | dropped => exact ⟨fun _ hj => update_of_ne hj _ _, rfl, rfl⟩
  | lost => exact ⟨fun _ hj => update_of_ne hj _ _, rfl, rfl⟩
  | filled => exact ⟨fun _ hj => update_of_ne hj _ _, rfl, rfl⟩
  | replaced => exact ⟨fun _ hj => update_of_ne hj _ _, rfl, rfl⟩

/-- What is not the object's stays. -/
theorem Change.kept (hc : Change s i v lost s') (h : Sound s) (ha : s.buffer a ≠ none) (hi : s.mBuffer i ≠ some a) :
    s'.buffer a = s.buffer a := by
  have hnext : a ≠ s.next := (h.lt_next ha).ne
  have hne : ∀ c, s.mBuffer i = some c → a ≠ c := by
    rintro c hc rfl
    exact hi hc
  cases hc with
  | same => rfl
  | wrote b hb => exact update_of_ne (hne _ hb) _ _
  | dropped hb => exact update_of_ne (hne _ hb) _ _
  | lost => rfl
  | filled => exact update_of_ne hnext _ _
  | replaced b hb => exact (update_of_ne (hne _ hb) _ _).trans (update_of_ne hnext _ _)

/-- Behind it the object has its old buffer or one that was not there. -/
theorem Change.slot (hc : Change s i v lost s') (h : Sound s) (ha : s'.mBuffer i = some a) :
    s'.buffer a ≠ none ∧ (s.mBuffer i = some a ∨ s.buffer a = none) := by
  have hfree : s.buffer s.next = none := h.fresh _ le_rfl
  cases hc with
  | same => exact ⟨h.live i a ha, .inl ha⟩
  | wrote b hb =>
    obtain rfl := Option.some.inj (hb.symm.trans ha)
    exact ⟨by simp [Sys.write], .inl ha⟩
  | dropped => simp [Sys.dropped] at ha
  | lost => simp [Sys.setBuffer] at ha
  | filled b =>
    obtain rfl : s.next = a := by simpa [Sys.filled, Sys.setBuffer] using ha
    exact ⟨by simp [Sys.filled, Sys.setBuffer, Sys.alloc], .inr hfree⟩
  | replaced b hb =>
    obtain rfl : s.next = a := by simpa [Sys.replaced] using ha
    have hne := (h.lt_next (h.live i _ hb)).ne'
    exact ⟨by simp [Sys.replaced, update_of_ne hne], .inr hfree⟩

theorem Change.content (hc : Change s i v lost s') (h : Sound s) : s'.content i = v := by
  cases hc with
  | same => rfl
  | wrote b hb => simp [Sys.content, Sys.write, hb]
  | dropped => simp [Sys.content, Sys.dropped]
  | lost => simp [Sys.content, Sys.setBuffer]
  | filled b => simp [Sys.content, Sys.filled, Sys.setBuffer, Sys.alloc]
  | replaced b hb =>
    have hne := (h.lt_next (h.live i _ hb)).ne'
    simp [Sys.content, Sys.replaced, update_of_ne hne]

theorem Change.fresh (hc : Change s i v lost s') (h : Sound s) (ha : s'.next ≤ a) : s'.buffer a = none := by
  have hnext : s.next ≤ a := by
    cases hc with
    | filled b => exact (Nat.le_succ _).trans ha
    | replaced b => exact (Nat.le_succ _).trans ha
    | _ => exact ha
  have hfree := h.fresh a hnext
  have hne : ∀ c, s.mBuffer i = some c → a ≠ c := by
    rintro c hc rfl
    exact h.live i a hc hfree
  cases hc with
  | same => exact hfree
  | wrote b hb => exact (update_of_ne (hne _ hb) _ _).trans hfree
  | dropped hb => exact (update_of_ne (hne _ hb) _ _).trans hfree
  | lost => exact hfree
  | filled b => exact (update_of_ne (Nat.ne_of_gt ha) _ _).trans hfree
  | replaced b hb =>
    exact ((update_of_ne (hne _ hb) _ _).trans (update_of_ne (Nat.ne_of_gt ha) _ _)).trans hfree

theorem Change.sound (hc : Change s i v lost s') (h : Sound s) : Sound s' := by
  obtain ⟨hothers, hclient, -⟩ := hc.others
  -- the buffer of another object
  have hother : ∀ j a, j ≠ i → s'.mBuffer j = some a →
      s.mBuffer j = some a ∧ s.mBuffer i ≠ some a ∧ s'.mBuffer i ≠ some a := by
    intro j a hj ha
    rw [hothers j hj] at ha
    have hi : s.mBuffer i ≠ some a := fun hi => hj (h.alone j i a ha hi)
    refine ⟨ha, hi, fun hi' => ?_⟩
    rcases (hc.slot h hi').2 with hold | hnew
    · exact hi hold
    · exact h.live j a ha hnew
  refine ⟨fun a => hc.fresh h, fun j a ha => ?_, fun j k a hj hk => ?_, fun a ha => ?_, fun j a ha => ?_⟩
  · by_cases hj : j = i
    · exact (hc.slot h (hj ▸ ha)).1
    · obtain ⟨hold, hi, -⟩ := hother j a hj ha
      rw [hc.kept h (h.live j a hold) hi]
      exact h.live j a hold
  · by_cases hji : j = i <;> by_cases hki : k = i
    · exact hji.trans hki.symm
    · exact absurd (hji ▸ hj) (hother k a hki hk).2.2
    · exact absurd (hki ▸ hk) (hother j a hji hj).2.2
    · exact h.alone j k a (hother j a hji hj).1 (hother k a hki hk).1
  · rw [hclient] at ha
    rw [hc.kept h (h.given a ha) fun hi => by rw [h.apart i a hi] at ha; cases ha]
    exact h.given a ha
  · rw [hclient]
    by_cases hj : j = i
    · rcases (hc.slot h (hj ▸ ha)).2 with hold | hnew
      · exact h.apart i a hold
      · exact Bool.eq_false_iff.mpr fun hgiven => h.given a hgiven hnew
    · exact h.apart j a (hother j a hj ha).1

/-- A buffer that was not there is the object's. -/
theorem Change.new (hc : Change s i v lost s') (hfree : s.buffer a = none) (ha : s'.buffer a ≠ none) :
    s'.mBuffer i = some a := by
  cases hc with
  | same => exact absurd hfree ha
  | @wrote c b hb =>
    by_cases heq : a = c
    · exact heq ▸ hb
    · exact absurd ((update_of_ne heq _ _).trans hfree) ha
  | @dropped c hb =>
    by_cases heq : a = c
    · exact absurd (heq ▸ update_self _ _ _) ha
    · exact absurd ((update_of_ne heq _ _).trans hfree) ha
  | lost => exact absurd hfree ha
  | filled b =>
    by_cases heq : a = s.next
    · exact heq ▸ update_self _ _ _
    · exact absurd ((update_of_ne heq _ _).trans hfree) ha
  | @replaced c b hb =>
    by_cases heq : a = s.next
    · exact heq ▸ update_self _ _ _
    · by_cases hc : a = c
      · exact absurd (hc ▸ update_self _ _ _) ha
      · exact absurd ((update_of_ne hc _ _).trans ((update_of_ne heq _ _).trans hfree)) ha

/-- Its old buffer is gone, unless it is kept or lost. -/
theorem Change.old (hc : Change s i v lost s') (ha : s.mBuffer i = some a) :
    s'.mBuffer i = some a ∧ lost = false ∨ s'.buffer a = none ∧ lost = false ∨
      s'.buffer a = s.buffer a ∧ s'.mBuffer i = none ∧ lost = true := by
  cases hc with
  | same => exact .inl ⟨ha, rfl⟩
  | wrote => exact .inl ⟨ha, rfl⟩
  | dropped hb =>
    obtain rfl := Option.some.inj (hb.symm.trans ha)
    exact .inr (.inl ⟨update_self _ _ _, rfl⟩)
  | lost => exact .inr (.inr ⟨rfl, update_self _ _ _, rfl⟩)
  | filled b hb => cases hb.symm.trans ha
  | replaced b hb =>
    obtain rfl := Option.some.inj (hb.symm.trans ha)
    exact .inr (.inl ⟨update_self _ _ _, rfl⟩)

/-- The object's buffer is leaked if the change loses it, and no other one. -/
theorem Change.leaked_iff (hc : Change s i v lost s') (h : Sound s) :
    s'.leaked a ↔ s.leaked a ∨ lost = true ∧ s.mBuffer i = some a := by
  obtain ⟨hothers, hclient, -⟩ := hc.others
  constructor
  · rintro ⟨hlive, hslots, hgiven⟩
    rw [hclient] at hgiven
    by_cases hi : s.mBuffer i = some a
    · rcases hc.old hi with ⟨hkeep, -⟩ | ⟨hfreed, -⟩ | ⟨-, -, hlost⟩
      · exact absurd hkeep (hslots i)
      · exact absurd hfreed hlive
      · exact .inr ⟨hlost, hi⟩
    · have hold : s.buffer a ≠ none := fun hfree => hslots i (hc.new hfree hlive)
      refine .inl ⟨hold, fun j hj => ?_, hgiven⟩
      by_cases hji : j = i
      · exact hi (hji ▸ hj)
      · exact hslots j ((hothers j hji).trans hj)
  · rintro (⟨hlive, hslots, hgiven⟩ | ⟨hlost, hi⟩)
    · refine ⟨hc.kept h hlive (hslots i) ▸ hlive, fun j hj => ?_, hclient ▸ hgiven⟩
      by_cases hji : j = i
      · rcases (hc.slot h (hji ▸ hj)).2 with hold | hnew
        · exact hslots i hold
        · exact hlive hnew
      · exact hslots j ((hothers j hji).symm.trans hj)
    · rcases hc.old hi with ⟨-, hfalse⟩ | ⟨-, hfalse⟩ | ⟨hkeep, hnone, -⟩
      · cases hlost.symm.trans hfalse
      · cases hlost.symm.trans hfalse
      refine ⟨hkeep ▸ h.live i a hi, fun j hj => ?_, hclient ▸ h.apart i a hi⟩
      by_cases hji : j = i
      · cases hnone.symm.trans (hji ▸ hj)
      · exact hji (h.alone j i a ((hothers j hji).symm.trans hj) hi)

/-- A write behind the change. -/
theorem Change.write (hc : Change s i v lost s') (h : Sound s) (ha : s'.mBuffer i = some a) (b : β) :
    Change s i (some b) lost (s'.write a b) := by
  cases hc with
  | same => exact .wrote b ha
  | wrote b' hb =>
    obtain rfl := Option.some.inj (hb.symm.trans ha)
    have := Change.wrote (i := i) b hb
    simpa [Sys.write, update_idem] using this
  | dropped => simp [Sys.dropped] at ha
  | lost => simp [Sys.setBuffer] at ha
  | filled b' hb =>
    obtain rfl : s.next = a := by simpa [Sys.filled, Sys.setBuffer] using ha
    have := Change.filled (i := i) b hb
    simpa [Sys.write, Sys.filled, Sys.setBuffer, Sys.alloc, update_idem] using this
  | replaced b' hb =>
    obtain rfl : s.next = a := by simpa [Sys.replaced] using ha
    have hne := (h.lt_next (h.live i _ hb)).ne
    have := Change.replaced (i := i) b hb
    simpa [Sys.write, Sys.replaced, update_comm hne, update_idem] using this

/-! ## The functions -/

/-- Whether there must be a new buffer, and what the buffer is then. -/
def needs (lib : Library β δ) (c : Option β) (extraEntries extraData : Nat) : Bool :=
  c.all fun b => grows lib b extraEntries extraData

def grown (lib : Library β δ) (c : Option β) (extraEntries extraData : Nat) : β :=
  match c with
  | none => lib.allocate (extraEntries * 2) (extraData * 2)
  | some b =>
    if grows lib b extraEntries extraData then
      (lib.append (lib.allocate (grownCount (lib.entry_count b) extraEntries (lib.entry_capacity b))
        (grownCount (lib.data_count b) extraData (lib.data_capacity b))) b).2
    else b

omit [DecidableEq ι] in
theorem Sound.content_some (h : Sound s) (ha : s.mBuffer i = some a) :
    ∃ b, s.buffer a = some b ∧ s.content i = some b := by
  obtain ⟨b, hb⟩ := Option.ne_none_iff_exists'.mp (h.live i a ha)
  exact ⟨b, hb, by rw [Sys.content, ha, Option.bind_some, hb]⟩

theorem Change.of_content {v w : Option β} {lost : Bool} (hc : Change s i v lost s') (h : v = w) :
    Change s i w lost s' := h ▸ hc

theorem Sys.setBuffer_same {p : Option Nat} (h : s.mBuffer i = p) : s.setBuffer i p = s := by
  rw [← h, Sys.setBuffer, update_eq_self]

theorem clear_change (h : Sound s) (hi : s.mLocked i = false) :
    ∃ s', s.clear i = some s' ∧ Change s i none false s' ∧ s'.mBuffer i = none := by
  unfold Sys.clear
  rw [if_neg (by simp [hi])]
  cases ha : s.mBuffer i with
  | none => exact ⟨s, rfl, Change.same.of_content (by rw [Sys.content, ha]; rfl), ha⟩
  | some a =>
    obtain ⟨b, hb, -⟩ := h.content_some ha
    exact ⟨s.dropped i a, by simp [Sys.free, hb, Sys.setBuffer, Sys.dropped], .dropped ha, update_self _ _ _⟩

/-- `clear` behind an allocation. -/
theorem alloc_change (h : Sound s) (hi : s.mLocked i = false) (b : β) : ∃ s₁, (s.alloc b).clear i = some s₁ ∧
    Change s i (some b) false (s₁.setBuffer i (some s.next)) := by
  unfold Sys.clear
  rw [if_neg (by simp [Sys.alloc, hi])]
  cases ha : s.mBuffer i with
  | none => exact ⟨s.alloc b, by simp [Sys.alloc, ha], .filled b ha⟩
  | some a =>
    obtain ⟨b', hb, -⟩ := h.content_some ha
    have hne := (h.lt_next (h.live i a ha)).ne
    refine ⟨(s.alloc b).dropped i a, ?_, ?_⟩
    · simp [Sys.alloc, ha, Sys.free, update_of_ne hne, hb, Sys.setBuffer, Sys.dropped]
    · have := Change.replaced (i := i) b ha
      simpa [Sys.replaced, Sys.dropped, Sys.setBuffer, Sys.alloc, update_idem] using this

/-- The content behind `operator=`. -/
def assigned (lib : Library β δ) (mem : Bool) (s : Sys ι β) (i : ι) (p : Option Nat) : Option β :=
  if p = s.mBuffer i then s.content i else if mem then (p.bind s.buffer).map lib.clone else none

variable (lib mem) in
theorem assign_change (h : Sound s) (hi : s.mLocked i = false) {p : Option Nat}
    (hp : ∀ a, p = some a → s.buffer a ≠ none) :
    ∃ s', s.assign lib mem i p = some s' ∧ Change s i (assigned lib mem s i p) false s' := by
  unfold Sys.assign assigned
  rw [if_neg (by simp [hi])]
  split
  case isTrue => exact ⟨s, rfl, .same⟩
  case isFalse =>
    -- there is nothing to clone, or no memory for it
    have hnothing : ∃ s', ((s.clear i).map fun s => s.setBuffer i none) = some s' ∧ Change s i none false s' := by
      obtain ⟨s', hclear, hc, hnone⟩ := clear_change h hi
      exact ⟨s', by rw [hclear, Option.map_some, Sys.setBuffer_same hnone], hc⟩
    cases p with
    | none =>
      obtain ⟨s', hs', hc⟩ := hnothing
      exact ⟨s', hs', hc.of_content (by simp)⟩
    | some a =>
      obtain ⟨b, hb⟩ := Option.ne_none_iff_exists'.mp (hp a rfl)
      cases mem with
      | false =>
        obtain ⟨s', hs', hc⟩ := hnothing
        exact ⟨s', by simpa [Sys.clone, hb] using hs', hc⟩
      | true =>
        obtain ⟨s₁, hclear, hc⟩ := alloc_change h hi (lib.clone b)
        exact ⟨_, by simp [Sys.clone, hb, hclear], hc.of_content (by simp [hb])⟩

variable (lib mem) in
/-- A buffer of its own that is large enough, or none and the status. -/
theorem resizeIfNeeded_change (h : Sound s) (i : ι) (extraEntries extraData : Nat) :
    ∃ st s', s.resizeIfNeeded lib mem i extraEntries extraData = some (st, s') ∧
      if mem = true ∨ needs lib (s.content i) extraEntries extraData = false then
        st = .OK ∧ Change s i (some (grown lib (s.content i) extraEntries extraData)) false s' ∧ s'.mBuffer i ≠ none ∧
          (needs lib (s.content i) extraEntries extraData = false → s' = s) ∧
          (needs lib (s.content i) extraEntries extraData = true → ∀ a, s.mBuffer i = some a → s'.buffer a = none)
      else st = .NO_MEMORY ∧ Change s i none (s.mBuffer i).isSome s' ∧ s'.mBuffer i = none := by
  unfold Sys.resizeIfNeeded
  cases ha : s.mBuffer i with
  | none =>
    have hcontent : s.content i = none := by rw [Sys.content, ha]; rfl
    simp only [hcontent, needs, grown, Option.all_none, Bool.true_eq_false, or_false]
    cases mem with
    | false => exact ⟨.NO_MEMORY, s, rfl, by simp, Change.same.of_content hcontent, ha⟩
    | true => exact ⟨.OK, _, rfl, rfl, .filled _ ha, by simp [Sys.setBuffer], by simp⟩
  | some oldBuffer =>
    obtain ⟨b, hb, hcontent⟩ := h.content_some ha
    simp only [hcontent, needs, grown, Option.all_some, Option.bind_some, hb]
    by_cases hg : grows lib b extraEntries extraData
    · have hne := (h.lt_next (h.live i _ ha)).ne
      simp only [hg, if_true, Bool.true_eq_false, or_false]
      cases mem with
      | false => exact ⟨.NO_MEMORY, _, rfl, by simp, .lost ha, update_self _ _ _⟩
      | true =>
        refine ⟨.OK, s.replaced i oldBuffer _, ?_, rfl, .replaced _ ha, by simp [Sys.replaced],
          by simp [Sys.replaced]⟩
        simp [Sys.free, Sys.write, Sys.setBuffer, Sys.alloc, Sys.replaced, update_of_ne hne, hb, update_idem]
    · simp only [hg, Bool.false_eq_true, if_false, or_true, if_true]
      exact ⟨.OK, s, rfl, rfl, Change.same.of_content hcontent, by simp [ha], fun _ => rfl,
        fun htrue => nomatch htrue⟩

/-- The object's own buffer is freed by the growth that a call asks for. -/
def Clash (lib : Library β δ) (mem : Bool) (s : Sys ι β) (i : ι) (other : Option Nat) (extraEntries extraData : Nat) :
    Prop :=
  mem = true ∧ other = s.mBuffer i ∧ needs lib (s.content i) extraEntries extraData = true

/-- Any other buffer is still there. -/
theorem resizeIfNeeded_reads (h : Sound s) {other : Option Nat} {extraEntries extraData : Nat} {st : Status}
    (hr : s.resizeIfNeeded lib mem i extraEntries extraData = some (st, s')) (hother : other = some a)
    (ha : s.buffer a ≠ none) (hclash : ¬ Clash lib mem s i other extraEntries extraData) :
    s'.buffer a = s.buffer a := by
  obtain ⟨st', s₁, hr', hspec⟩ := resizeIfNeeded_change lib mem h i extraEntries extraData
  obtain ⟨rfl, rfl⟩ : st' = st ∧ s₁ = s' := by simpa [hr] using hr'.symm
  by_cases hi : s.mBuffer i = some a
  · split at hspec
    case isTrue hok =>
      obtain ⟨-, -, -, hsame, -⟩ := hspec
      rcases hok with hmem | hno
      · rw [hsame (Bool.eq_false_iff.mpr fun hneeds => hclash ⟨hmem, hother.trans hi.symm, hneeds⟩)]
      · rw [hsame hno]
    case isFalse =>
      obtain ⟨-, hc, hnone⟩ := hspec
      rcases hc.old hi with ⟨hkeep, -⟩ | ⟨-, hlost⟩ | ⟨hkeep, -, -⟩
      · cases hnone.symm.trans hkeep
      · rw [hi] at hlost
        cases hlost
      · exact hkeep
  · split at hspec
    case isTrue => exact hspec.2.1.kept h ha hi
    case isFalse => exact hspec.2.1.kept h ha hi

theorem append_null (hi : s.mLocked i = false) : s.append lib mem i none = none := by
  unfold Sys.append
  rw [if_neg (by simp [hi])]
  rfl

theorem append_clash (h : Sound s) (hi : s.mLocked i = false) (ha : s.buffer a = some src)
    (hclash : Clash lib mem s i (some a) (lib.entry_count src) (lib.data_count src)) :
    s.append lib mem i (some a) = none := by
  obtain ⟨hmem, hother, hneeds⟩ := hclash
  obtain ⟨st, s', hr, hspec⟩ := resizeIfNeeded_change lib mem h i (lib.entry_count src)
    (lib.data_count src)
  rw [if_pos (.inl hmem)] at hspec
  have hfreed := hspec.2.2.2.2 hneeds a hother.symm
  unfold Sys.append
  rw [if_neg (by simp [hi])]
  simp [ha, hr, hfreed]

theorem append_change (h : Sound s) (hi : s.mLocked i = false) (ha : s.buffer a = some src)
    (hclash : ¬ Clash lib mem s i (some a) (lib.entry_count src) (lib.data_count src)) :
    ∃ st s', s.append lib mem i (some a) = some (st, s') ∧
      if mem = true ∨ needs lib (s.content i) (lib.entry_count src) (lib.data_count src) = false then
        let appended := lib.append (grown lib (s.content i) (lib.entry_count src) (lib.data_count src)) src
        st = appended.1 ∧ Change s i (some appended.2) false s'
      else st = .ERROR ∧ Change s i none (s.mBuffer i).isSome s' := by
  obtain ⟨st, s₁, hr, hspec⟩ := resizeIfNeeded_change lib mem h i (lib.entry_count src)
    (lib.data_count src)
  have hreads := resizeIfNeeded_reads h hr rfl (by simp [ha]) hclash
  unfold Sys.append
  rw [if_neg (by simp [hi])]
  simp only [Option.bind_some, ha, hr, hreads]
  split at hspec
  case isTrue hok =>
    obtain ⟨-, hc, hsome, -⟩ := hspec
    obtain ⟨a', ha'⟩ := Option.ne_none_iff_exists'.mp hsome
    have hcontent := hc.content h
    rw [Sys.content, ha', Option.bind_some] at hcontent
    simp only [ha', hcontent, Option.map_some]
    refine ⟨_, _, rfl, ?_⟩
    rw [if_pos hok]
    exact ⟨rfl, hc.write h ha' _⟩
  case isFalse hfail =>
    obtain ⟨-, hc, hnone⟩ := hspec
    simp only [hnone]
    refine ⟨.ERROR, s₁, rfl, ?_⟩
    rw [if_neg hfail]
    exact ⟨rfl, hc⟩

/-- What the library makes of the buffer for an entry. -/
def put (lib : Library β δ) (b : β) (tag : BitVec 32) (data : List δ) : Status × β :=
  match lib.find b tag with
  | none => lib.add b (tag, data)
  | some index => lib.update b index data

variable (mem) in
theorem updateImpl_change (h : Sound s) (hi : s.mLocked i = false) {tag : BitVec 32} {type : EntryType}
    (htype : lib.tag_type tag = some type) (data : List δ) {p : Option Nat} (hown : ¬ (p.isSome ∧ p = s.mBuffer i))
    (hp : ∀ a, p = some a → s.buffer a ≠ none) :
    ∃ st s', s.updateImpl lib mem i tag data p = some (st, s') ∧
      if mem = true ∨ needs lib (s.content i) 1 (lib.entry_data_size type data.length) = false then
        let done := put lib (grown lib (s.content i) 1 (lib.entry_data_size type data.length)) tag data
        st = done.1 ∧ Change s i (some done.2) false s'
      else st = .NO_MEMORY ∧ Change s i none (s.mBuffer i).isSome s' := by
  obtain ⟨st, s₁, hr, hspec⟩ := resizeIfNeeded_change lib mem h i 1
    (lib.entry_data_size type data.length)
  unfold Sys.updateImpl
  rw [if_neg (by simp [hi])]
  simp only [htype, if_neg hown, hr, Option.bind_some]
  split at hspec
  case isTrue hok =>
    obtain ⟨rfl, hc, hsome, -⟩ := hspec
    have hreads : ¬ (p.any fun a => (s₁.buffer a).isNone) = true := by
      cases p with
      | none => simp
      | some a =>
        have hclash : ¬ Clash lib mem s i (some a) 1 (lib.entry_data_size type data.length) :=
          fun hclash => hown ⟨rfl, hclash.2.1⟩
        simpa [resizeIfNeeded_reads h hr rfl (hp a rfl) hclash] using hp a rfl
    obtain ⟨a', ha'⟩ := Option.ne_none_iff_exists'.mp hsome
    have hcontent := hc.content h
    rw [Sys.content, ha', Option.bind_some] at hcontent
    simp only [ne_eq, not_true, if_false, if_neg hreads, ha', hcontent, Option.bind_some, Option.map_some]
    refine ⟨_, _, rfl, ?_⟩
    rw [if_pos hok]
    exact ⟨rfl, hc.write h ha' _⟩
  case isFalse hfail =>
    obtain ⟨rfl, hc, -⟩ := hspec
    refine ⟨.NO_MEMORY, s₁, rfl, ?_⟩
    rw [if_neg hfail]
    exact ⟨rfl, hc⟩

end MochaHal.Camera.Metadata
