import MochaHal.Camera.MetadataChange
import MochaHal.Lib.Reach
import Mathlib.Logic.Equiv.Basic

/-! The calls of `libmocha/camera/CameraMetadata.cpp` over a run.  `owners` says which calls use
memory that is not theirs and which lose a buffer, and `lent_kept` that a buffer which is lent
out stays as it is. -/

namespace MochaHal.Camera.Metadata
open Function

variable {ι β δ : Type} [DecidableEq ι] {lib : Library β δ} {s s' : Sys ι β} {i j : ι} {a : Nat} {b src : β}
  {mem : Bool}

/-! ## Runs -/

/-- The calls.  A constructor makes an object in a place where there is none, and one that takes
a buffer is `acquire` there; a caller may have buffers of its own. -/
inductive Op (ι β δ : Type)
  | construct (i : ι) (entryCapacity dataCapacity : Nat)
  | copy (i j : ι)
  | destroy (i : ι)
  | assign (i : ι) (buffer : Option Nat)
  | assignFrom (i j : ι)
  | getAndLock (i : ι)
  | unlock (i : ι) (buffer : Option Nat)
  | release (i : ι)
  | clear (i : ι)
  | acquire (i : ι) (buffer : Option Nat)
  | acquireFrom (i j : ι)
  | append (i : ι) (other : Option Nat)
  | appendFrom (i j : ι)
  | sort (i : ι)
  | update (i : ι) (type : EntryType) (tag : BitVec 32) (data : List δ) (src : Option Nat)
  | find (i : ι) (tag : BitVec 32)
  | findConst (i : ι) (tag : BitVec 32)
  | entryCount (i : ι)
  | erase (i : ι) (tag : BitVec 32)
  | readFromParcel (i : ι) (got : Except Status (Option β))
  | swap (i j : ι)
  | give (b : β)
  | free (a : Nat)

inductive Ret (δ : Type)
  | done
  | status (st : Status)
  | buffer (p : Option Nat)
  | values (data : Option (List δ))
  | count (n : Nat)
  deriving DecidableEq

def Sys.setClient (s : Sys ι β) (p : Option Nat) (owns : Bool) : Sys ι β :=
  { s with client := fun a => if p = some a then owns else s.client a }

def done (s : Sys ι β) : Ret δ × Sys ι β := (.done, s)

def status (r : Status × Sys ι β) : Ret δ × Sys ι β := (.status r.1, r.2)

/-- A call, and whether there is memory for it. -/
def next (lib : Library β δ) (s : Sys ι β) : Op ι β δ × Bool → Option (Ret δ × Sys ι β)
  | (.construct i e d, mem) =>
    some (done (if mem then (s.alloc (lib.allocate e d)).setBuffer i (some s.next) else s.setBuffer i none))
  | (.copy i j, mem) => (s.clone lib mem (s.mBuffer j)).map fun r => done (r.2.setBuffer i r.1)
  | (.destroy i, _) => (s.destroy i).map done
  | (.assign i p, mem) => (s.assign lib mem i p).map done
  | (.assignFrom i j, mem) => (s.assign lib mem i (s.mBuffer j)).map done
  | (.getAndLock i, _) => some (.buffer (s.getAndLock i).1, (s.getAndLock i).2)
  | (.unlock i p, _) => some (status (s.unlock i p))
  | (.release i, _) => some (.buffer (s.release i).1, (s.release i).2.setClient (s.release i).1 true)
  | (.clear i, _) => (s.clear i).map done
  | (.acquire i p, _) => (s.acquire i p).map fun s' => done (if s.mLocked i then s' else s'.setClient p false)
  | (.acquireFrom i j, _) => (s.acquireFrom i j).map done
  | (.append i p, mem) => (s.append lib mem i p).map status
  | (.appendFrom i j, mem) => (s.append lib mem i (s.mBuffer j)).map status
  | (.sort i, _) => (s.sort lib i).map status
  | (.update i type tag data p, mem) => (s.update lib mem i type tag data p).map status
  | (.find i tag, _) => (s.find lib i tag).map fun v => (.values v, s)
  | (.findConst i tag, _) => (s.findConst lib i tag).map fun v => (.values v, s)
  | (.entryCount i, _) => (s.entryCount lib i).map fun n => (.count n, s)
  | (.erase i tag, _) => (s.erase lib i tag).map status
  | (.readFromParcel i got, _) => (s.readFromParcel i got).map status
  | (.swap i j, _) => some (done (s.swap i j))
  | (.give b, _) => some (.buffer (some s.next), (s.alloc b).setClient (some s.next) true)
  | (.free a, _) => (s.free a).map fun s => done (s.setClient (some a) false)

/-- A caller passes buffers that are there, and hands over or frees its own. -/
def ok (s : Sys ι β) : Op ι β δ × Bool → Bool
  | (.construct i _ _, _) => s.mBuffer i = none ∧ s.mLocked i = false
  | (.copy i _, _) => s.mBuffer i = none ∧ s.mLocked i = false
  | (.assign _ p, _) => p.all fun a => (s.buffer a).isSome
  | (.append _ p, _) => p.all fun a => (s.buffer a).isSome
  | (.update _ _ _ _ p, _) => p.all fun a => (s.buffer a).isSome
  | (.acquire _ p, _) => p.all fun a => s.client a
  | (.free a, _) => s.client a
  | _ => true

/-- The calls of `append` that read what is not there: of a null pointer, and of the object's
own buffer where it grows. -/
def NoAppend (lib : Library β δ) (mem : Bool) (s : Sys ι β) (i : ι) (other : Option Nat) : Prop :=
  s.mLocked i = false ∧
    ∀ src, other.bind s.buffer = some src → Clash lib mem s i other (lib.entry_count src) (lib.data_count src)

def Misuse (lib : Library β δ) (s : Sys ι β) : Op ι β δ × Bool → Prop
  | (.append i p, mem) => NoAppend lib mem s i p
  | (.appendFrom i j, mem) => NoAppend lib mem s i (s.mBuffer j)
  | _ => False

/-- The buffer that is lost when there is no memory to grow. -/
def lostAppend (lib : Library β δ) (mem : Bool) (s : Sys ι β) (i : ι) (other : Option Nat) : Option Nat :=
  (other.bind s.buffer).bind fun src =>
    if s.mLocked i = false ∧ mem = false ∧ needs lib (s.content i) (lib.entry_count src) (lib.data_count src) then
      s.mBuffer i
    else none

def lostUpdate (lib : Library β δ) (mem : Bool) (s : Sys ι β) (i : ι) (type : EntryType) (tag : BitVec 32)
    (data : List δ) (p : Option Nat) : Option Nat :=
  if s.mLocked i = false ∧ mem = false ∧ checkType lib tag type = .OK ∧ ¬ (p.isSome ∧ p = s.mBuffer i) ∧
      needs lib (s.content i) 1 (lib.entry_data_size type data.length) then s.mBuffer i
  else none

def lostBy (lib : Library β δ) (s : Sys ι β) : Op ι β δ × Bool → Option Nat
  | (.append i p, mem) => lostAppend lib mem s i p
  | (.appendFrom i j, mem) => lostAppend lib mem s i (s.mBuffer j)
  | (.update i type tag data p, mem) => lostUpdate lib mem s i type tag data p
  | _ => none

/-- The buffer that a caller gives back. -/
def backBy (s : Sys ι β) : Op ι β δ × Bool → Option Nat
  | (.unlock i p, _) => if s.mLocked i ∧ p = s.mBuffer i then p else none
  | (.destroy i, _) => s.mBuffer i
  | (.acquire i p, _) => if s.mLocked i then none else p
  | (.free a, _) => some a
  | _ => none

/-! ## Owners -/

/-- A caller may read the buffer: it owns it, or an object lends it. -/
def Lent (s : Sys ι β) (a : Nat) : Prop := s.client a = true ∨ ∃ i, s.mLocked i = true ∧ s.mBuffer i = some a

/-- All buffers have their owners.  One more is leaked, if any, and what is lent stays, but for
the one that the caller gives back. -/
structure Kept (s s' : Sys ι β) (lost back : Option Nat) : Prop where
  sound : Sound s'
  leaked : ∀ a, s'.leaked a ↔ s.leaked a ∨ lost = some a
  lent : ∀ a, Lent s a → back ≠ some a → Lent s' a ∧ s'.buffer a = s.buffer a

omit [DecidableEq ι] in
theorem Kept.refl (h : Sound s) : Kept s s none none := ⟨h, fun _ => by simp, fun _ hl _ => ⟨hl, rfl⟩⟩

section
omit [DecidableEq ι]
variable {s'' : Sys ι β} {back : Option Nat}

theorem Kept.trans (h : Kept s s' none back) (h' : Kept s' s'' none none) : Kept s s'' none back := by
  refine ⟨h'.sound, fun a => by simp [h'.leaked, h.leaked], fun a hl hback => ?_⟩
  obtain ⟨hl', hbuffer⟩ := h.lent a hl hback
  exact ⟨(h'.lent a hl' (by simp)).1, (h'.lent a hl' (by simp)).2.trans hbuffer⟩

theorem Kept.behind (h : Kept s s' none none) (h' : Kept s' s'' none back) : Kept s s'' none back := by
  refine ⟨h'.sound, fun a => by simp [h'.leaked, h.leaked], fun a hl hback => ?_⟩
  obtain ⟨hl', hbuffer⟩ := h.lent a hl (by simp)
  exact ⟨(h'.lent a hl' hback).1, (h'.lent a hl' hback).2.trans hbuffer⟩

end

theorem Change.keeps {v : Option β} {lost : Bool} (hc : Change s i v lost s') (h : Sound s)
    (hi : s.mLocked i = false) : Kept s s' (if lost then s.mBuffer i else none) none := by
  refine ⟨hc.sound h, fun a => by cases lost <;> simp [hc.leaked_iff h], ?_⟩
  obtain ⟨hothers, hclient, hlocked⟩ := hc.others
  rintro a (hgiven | ⟨k, hk, hslot⟩) -
  · have hne : s.mBuffer i ≠ some a := fun hia => Bool.false_ne_true ((h.apart i a hia).symm.trans hgiven)
    exact ⟨.inl (hclient ▸ hgiven), hc.kept h (h.given a hgiven) hne⟩
  · have hki : k ≠ i := by
      rintro rfl
      cases hi.symm.trans hk
    have hne : s.mBuffer i ≠ some a := fun hia => hki (h.alone k i a hslot hia)
    exact ⟨.inr ⟨k, hlocked ▸ hk, (hothers k hki).trans hslot⟩, hc.kept h (h.live k a hslot) hne⟩

/-- An object lends its buffer, or takes it back. -/
theorem lock_keeps (h : Sound s) (i : ι) (lock : Bool) :
    Kept s { s with mLocked := update s.mLocked i lock } none (if lock then none else s.mBuffer i) := by
  refine ⟨⟨h.fresh, h.live, h.alone, h.given, h.apart⟩, fun _ => (or_iff_left (by simp)).symm, ?_⟩
  rintro a (hgiven | ⟨k, hk, hslot⟩) hback
  · exact ⟨.inl hgiven, rfl⟩
  · refine ⟨.inr ⟨k, ?_, hslot⟩, rfl⟩
    by_cases hki : k = i
    · subst hki
      cases lock with
      | true => exact update_self _ _ _
      | false => exact absurd hslot hback
    · exact (update_of_ne hki _ _).trans hk

/-- The owner of a buffer: an object, or a caller. -/
def Owns (s : Sys ι β) : Option ι → Nat → Prop
  | none, a => s.client a = true
  | some i, a => s.mBuffer i = some a

omit [DecidableEq ι] in
theorem Sound.owner (h : Sound s) {o o' : Option ι} (ho : Owns s o a) (ho' : Owns s o' a) : o = o' := by
  cases o with
  | none =>
    cases o' with
    | none => rfl
    | some i => cases (h.apart i a ho').symm.trans ho
  | some i =>
    cases o' with
    | none => cases (h.apart i a ho).symm.trans ho'
    | some j => exact congrArg some (h.alone i j a ho ho')

omit [DecidableEq ι] in
theorem leaked_owner : s.leaked a ↔ s.buffer a ≠ none ∧ ∀ o, ¬ Owns s o a := by
  refine and_congr_right fun _ => ⟨?_, fun h => ⟨fun i => h (some i), Bool.eq_false_iff.mpr (h none)⟩⟩
  rintro ⟨hslots, hgiven⟩ (_ | i) ho
  · cases hgiven.symm.trans ho
  · exact hslots i ho

omit [DecidableEq ι] in
/-- Buffers that go to other owners. -/
theorem rename_keeps (h : Sound s) {back : Option Nat} (hbuffer : s'.buffer = s.buffer) (hnext : s'.next = s.next)
    (f : Option ι → Nat → Option ι) (hf : ∀ o a, Owns s' o a ↔ ∃ o₀, Owns s o₀ a ∧ f o₀ a = o)
    (hlent : ∀ a, Lent s a → back ≠ some a → Lent s' a) : Kept s s' none back := by
  have hlive : ∀ o a, Owns s' o a → s'.buffer a ≠ none := by
    intro o a ho
    obtain ⟨o₀, ho₀, -⟩ := (hf o a).mp ho
    rw [hbuffer]
    cases o₀ with
    | none => exact h.given a ho₀
    | some i => exact h.live i a ho₀
  have howner : ∀ o o' a, Owns s' o a → Owns s' o' a → o = o' := by
    intro o o' a ho ho'
    obtain ⟨o₀, ho₀, rfl⟩ := (hf o a).mp ho
    obtain ⟨o₁, ho₁, rfl⟩ := (hf o' a).mp ho'
    rw [h.owner ho₀ ho₁]
  refine ⟨⟨fun a ha => ?_, fun i a => hlive (some i) a, fun i j a hi hj => Option.some.inj (howner _ _ a hi hj),
    fun a => hlive none a, fun i a hi => Bool.eq_false_iff.mpr fun hgiven => ?_⟩, fun a => ?_,
    fun a hl hback => ⟨hlent a hl hback, by rw [hbuffer]⟩⟩
  · rw [hbuffer]
    exact h.fresh a (hnext ▸ ha)
  · exact Option.some_ne_none i (howner (some i) none a hi hgiven)
  · rw [leaked_owner, leaked_owner, hbuffer, or_iff_left (by simp)]
    refine and_congr_right fun _ => ⟨fun hno o ho => ?_, fun hno o ho => ?_⟩
    · exact hno (f o a) ((hf _ a).mpr ⟨o, ho, rfl⟩)
    · obtain ⟨o₀, ho₀, -⟩ := (hf o a).mp ho
      exact hno o₀ ho₀

theorem release_keeps (h : Sound s) (hi : s.mLocked i = false) :
    Kept s ((s.setBuffer i none).setClient (s.mBuffer i) true) none none := by
  refine rename_keeps h rfl rfl (fun o _ => if o = some i then none else o) ?_ ?_
  swap
  · rintro a (hgiven | ⟨k, hk, hslot⟩) -
    · exact .inl (by simp [Sys.setClient, Sys.setBuffer, hgiven])
    · have hki : k ≠ i := by
        rintro rfl
        cases hi.symm.trans hk
      exact .inr ⟨k, hk, (update_of_ne hki _ _).trans hslot⟩
  rintro (_ | k) a
  · by_cases hi : s.mBuffer i = some a
    · exact iff_of_true (by simp [Owns, Sys.setClient, hi]) ⟨some i, hi, if_pos rfl⟩
    · simp only [Owns, Sys.setClient, Sys.setBuffer, hi, if_false]
      refine ⟨fun hgiven => ⟨none, hgiven, rfl⟩, ?_⟩
      rintro ⟨_ | k, ho, heq⟩
      · exact ho
      · by_cases hk : k = i
        · exact absurd (hk ▸ ho) hi
        · cases (if_neg fun hk' => hk (Option.some.inj hk')).symm.trans heq
  · by_cases hk : k = i
    · simp [Owns, Sys.setClient, Sys.setBuffer, hk]
    · simp only [Owns, Sys.setClient, Sys.setBuffer, update_of_ne hk]
      refine ⟨fun ho => ⟨some k, ho, if_neg fun hk' => hk (Option.some.inj hk')⟩, ?_⟩
      rintro ⟨o, ho, heq⟩
      split at heq
      case isTrue => cases heq
      case isFalse =>
        subst heq
        exact ho

theorem take_keeps (h : Sound s) (hi : s.mBuffer i = none) {p : Option Nat}
    (hp : ∀ a, p = some a → s.client a = true) : Kept s ((s.setBuffer i p).setClient p false) none p := by
  refine rename_keeps h rfl rfl (fun o a => if p = some a then some i else o) ?_ ?_
  swap
  · rintro a (hgiven | ⟨k, hk, hslot⟩) hback
    · exact .inl ((if_neg hback).trans hgiven)
    · have hki : k ≠ i := by
        rintro rfl
        cases hi.symm.trans hslot
      exact .inr ⟨k, hk, (update_of_ne hki _ _).trans hslot⟩
  intro o a
  by_cases ha : p = some a
  · -- the buffer that is taken
    have howner : ∀ o₀, Owns s o₀ a → o₀ = none := fun o₀ ho => h.owner ho (hp a ha)
    simp only [ha, if_true]
    cases o with
    | none => simp [Owns, Sys.setClient]
    | some k =>
      by_cases hk : k = i
      · subst hk
        exact iff_of_true (by simp [Owns, Sys.setClient, Sys.setBuffer]) ⟨none, hp a ha, rfl⟩
      · simp only [Owns, Sys.setClient, Sys.setBuffer, update_of_ne hk]
        constructor
        · intro ho
          cases howner (some k) ho
        · rintro ⟨_, _, heq⟩
          exact absurd (Option.some.inj heq).symm hk
  · simp only [ha, if_false, exists_eq_right]
    cases o with
    | none => simp [Owns, Sys.setClient, Sys.setBuffer, ha]
    | some k =>
      by_cases hk : k = i
      · subst hk
        simp [Owns, Sys.setClient, Sys.setBuffer, ha, hi]
      · simp [Owns, Sys.setClient, Sys.setBuffer, update_of_ne hk]

theorem swap_keeps (h : Sound s) (hi : s.mLocked i = false) (hj : s.mLocked j = false) :
    Kept s ((s.setBuffer j (s.mBuffer i)).setBuffer i (s.mBuffer j)) none none := by
  have hslot : ∀ k, update (update s.mBuffer j (s.mBuffer i)) i (s.mBuffer j) k = s.mBuffer (Equiv.swap i j k) := by
    intro k
    by_cases hi : k = i
    · rw [hi, update_self, Equiv.swap_apply_left]
    · rw [update_of_ne hi]
      by_cases hj : k = j
      · rw [hj, update_self, Equiv.swap_apply_right]
      · rw [update_of_ne hj, Equiv.swap_apply_of_ne_of_ne hi hj]
  refine rename_keeps h rfl rfl (fun o _ => o.map (Equiv.swap i j)) ?_ ?_
  swap
  · rintro a (hgiven | ⟨k, hk, hslot'⟩) -
    · exact .inl hgiven
    · have hne : k ≠ i ∧ k ≠ j := by
        refine ⟨?_, ?_⟩ <;> rintro rfl
        · cases hi.symm.trans hk
        · cases hj.symm.trans hk
      have hsame := congrArg s.mBuffer (Equiv.swap_apply_of_ne_of_ne hne.1 hne.2)
      exact .inr ⟨k, hk, ((hslot k).trans hsame).trans hslot'⟩
  rintro (_ | k) a
  · simp [Owns, Sys.setBuffer]
  · simp only [Owns, Sys.setBuffer, hslot]
    refine ⟨fun ho => ⟨some (Equiv.swap i j k), ho, by simp⟩, ?_⟩
    rintro ⟨_ | k', ho, heq⟩
    · cases heq
    · obtain rfl := Option.some.inj heq
      rwa [Equiv.swap_apply_self]

omit [DecidableEq ι] in
theorem give_keeps (h : Sound s) (b : β) : Kept s ((s.alloc b).setClient (some s.next) true) none none := by
  have hfree := h.fresh s.next le_rfl
  have hne : ∀ a, s.buffer a ≠ none → a ≠ s.next := fun a ha => (h.lt_next ha).ne
  have hbuffer : ∀ a, a ≠ s.next → ((s.alloc b).setClient (some s.next) true).buffer a = s.buffer a := fun a ha =>
    update_of_ne ha _ _
  have hclient : ∀ a, a ≠ s.next → ((s.alloc b).setClient (some s.next) true).client a = s.client a := fun a ha =>
    if_neg fun heq => ha (Option.some.inj heq).symm
  have hnew : ((s.alloc b).setClient (some s.next) true).buffer s.next ≠ none := by simp [Sys.setClient, Sys.alloc]
  have hgiven : ((s.alloc b).setClient (some s.next) true).client s.next = true := if_pos rfl
  refine ⟨⟨fun a ha => ?_, fun k a hk => ?_, h.alone, fun a ha => ?_, fun k a hk => ?_⟩, fun a => ?_, ?_⟩
  · have hlt : s.next < a := ha
    rw [hbuffer a hlt.ne']
    exact h.fresh a hlt.le
  · rw [hbuffer a (hne a (h.live k a hk))]
    exact h.live k a hk
  · by_cases heq : a = s.next
    · exact heq ▸ hnew
    · rw [hbuffer a heq]
      exact h.given a ((hclient a heq).symm.trans ha)
  · rw [hclient a (hne a (h.live k a hk))]
    exact h.apart k a hk
  · rw [or_iff_left (by simp)]
    by_cases heq : a = s.next
    · subst heq
      exact iff_of_false (fun hl => Bool.false_ne_true (hl.2.2.symm.trans hgiven)) fun hl => hl.1 hfree
    · rw [Sys.leaked, Sys.leaked, hbuffer a heq, hclient a heq]
      rfl
  · rintro a (hc | ⟨k, hk, hslot⟩) -
    · have heq := hne a (h.given a hc)
      exact ⟨.inl ((hclient a heq).trans hc), hbuffer a heq⟩
    · exact ⟨.inr ⟨k, hk, hslot⟩, hbuffer a (hne a (h.live k a hslot))⟩

omit [DecidableEq ι] in
theorem free_keeps (h : Sound s) (ha : s.client a = true) :
    ∃ s', s.free a = some s' ∧ Kept s (s'.setClient (some a) false) none (some a) := by
  obtain ⟨b, hb⟩ := Option.ne_none_iff_exists'.mp (h.given a ha)
  let s₁ := ({ s with buffer := update s.buffer a none } : Sys ι β).setClient (some a) false
  have hbuffer : ∀ c, c ≠ a → s₁.buffer c = s.buffer c := fun c hc => update_of_ne hc _ _
  have hclient : ∀ c, c ≠ a → s₁.client c = s.client c := fun c hc => if_neg fun heq => hc (Option.some.inj heq).symm
  have hgone : s₁.buffer a = none := update_self _ _ _
  have hnot : s₁.client a = false := if_pos rfl
  have hslot : ∀ k c, s.mBuffer k = some c → c ≠ a := by
    rintro k c hk rfl
    cases (h.apart k c hk).symm.trans ha
  refine ⟨{ s with buffer := update s.buffer a none }, by rw [Sys.free, hb, Option.map_some],
    ⟨fun c hc => ?_, fun k c hk => ?_, h.alone, fun c hc => ?_, fun k c hk => ?_⟩, fun c => ?_, ?_⟩
  · by_cases heq : c = a
    · rw [heq]
      exact hgone
    · exact (hbuffer c heq).trans (h.fresh c hc)
  · exact (hbuffer c (hslot k c hk)).symm ▸ h.live k c hk
  · have heq : c ≠ a := by
      rintro rfl
      cases hnot.symm.trans hc
    exact (hbuffer c heq).symm ▸ h.given c ((hclient c heq).symm.trans hc)
  · exact (hclient c (hslot k c hk)).trans (h.apart k c hk)
  · rw [or_iff_left (by simp)]
    by_cases heq : c = a
    · subst heq
      exact iff_of_false (fun hl => hl.1 hgone) fun hl => Bool.false_ne_true (hl.2.2.symm.trans ha)
    · show s₁.leaked c ↔ s.leaked c
      rw [Sys.leaked, Sys.leaked, hbuffer c heq, hclient c heq]
      rfl
  · rintro c (hc | ⟨k, hk, hslot'⟩) hback
    · have heq : c ≠ a := fun heq => hback (congrArg some heq.symm)
      exact ⟨.inl ((hclient c heq).trans hc), hbuffer c heq⟩
    · exact ⟨.inr ⟨k, hk, hslot'⟩, hbuffer c (hslot k c hslot')⟩

theorem clear_keeps (h : Sound s) (i : ι) : ∃ s', s.clear i = some s' ∧ Kept s s' none none := by
  cases hi : s.mLocked i with
  | true => exact ⟨s, if_pos hi, .refl h⟩
  | false =>
    obtain ⟨s', hclear, hc, -⟩ := clear_change h hi
    exact ⟨s', hclear, hc.keeps h hi⟩

theorem destroy_keeps (h : Sound s) (i : ι) : ∃ s', s.destroy i = some s' ∧ Kept s s' none (s.mBuffer i) := by
  have hlock := lock_keeps h i false
  obtain ⟨s', hclear, hkept⟩ := clear_keeps hlock.sound i
  exact ⟨s', hclear, hlock.trans hkept⟩

theorem assign_keeps (h : Sound s) (i : ι) {p : Option Nat} (hp : ∀ a, p = some a → s.buffer a ≠ none) :
    ∃ s', s.assign lib mem i p = some s' ∧ Kept s s' none none := by
  cases hi : s.mLocked i with
  | true => exact ⟨s, if_pos hi, .refl h⟩
  | false =>
    obtain ⟨s', hassign, hc⟩ := assign_change lib mem h hi hp
    exact ⟨s', hassign, hc.keeps h hi⟩

theorem acquire_keeps (h : Sound s) (i : ι) {p : Option Nat} (hp : ∀ a, p = some a → s.client a = true) :
    ∃ s', s.acquire i p = some s' ∧ Kept s (if s.mLocked i then s' else s'.setClient p false) none
      (if s.mLocked i then none else p) := by
  unfold Sys.acquire
  cases hi : s.mLocked i with
  | true => exact ⟨s, rfl, .refl h⟩
  | false =>
    obtain ⟨s', hclear, hc, hnone⟩ := clear_change h hi
    have hp' : ∀ a, p = some a → s'.client a = true := hc.others.2.1 ▸ hp
    exact ⟨s'.setBuffer i p, by simp [hclear], (hc.keeps h hi).behind (take_keeps (hc.sound h) hnone hp')⟩

theorem acquireFrom_self (hi : s.mLocked i = false) : s.acquireFrom i i = some s := by
  have hback : (s.setBuffer i none).setBuffer i (s.mBuffer i) = s := by
    simp [Sys.setBuffer, update_idem, update_eq_self]
  have hnothing : (s.setBuffer i none).clear i = some (s.setBuffer i none) := by simp [Sys.clear, Sys.setBuffer, hi]
  rw [Sys.acquireFrom, Sys.release, hi, if_neg (by simp), if_neg (by simp)]
  show ((s.setBuffer i none).acquire i (s.mBuffer i)) = some s
  rw [Sys.acquire, if_neg (by simp [Sys.setBuffer, hi]), hnothing, Option.map_some, hback]

/-- The other buffer moves to the object that was cleared for it. -/
theorem acquireFrom_other (h : Sound s) (hi : s.mLocked i = false) (hj : s.mLocked j = false) (hij : i ≠ j)
    (hclear : s.clear i = some s') :
    s.acquireFrom i j = some ((s'.setBuffer j none).setBuffer i (s.mBuffer j)) := by
  have hclear' : (s.setBuffer j none).clear i = some (s'.setBuffer j none) := by
    have hslot : (s.setBuffer j none).mBuffer i = s.mBuffer i := update_of_ne hij _ _
    unfold Sys.clear at hclear ⊢
    rw [if_neg (by simp [hi])] at hclear
    rw [if_neg (by simp [Sys.setBuffer, hi]), hslot]
    cases ha : s.mBuffer i with
    | none =>
      obtain rfl : s = s' := by simpa [ha] using hclear
      rfl
    | some a =>
      obtain ⟨b, hb, -⟩ := h.content_some ha
      obtain rfl : s.dropped i a = s' := by
        simpa [ha, Sys.free, hb, Sys.setBuffer, Sys.dropped] using hclear
      simp [Sys.free, Sys.setBuffer, Sys.dropped, hb, update_comm hij]
  rw [Sys.acquireFrom, Sys.release, hi, hj, if_neg (by simp), if_neg (by simp)]
  show ((s.setBuffer j none).acquire i (s.mBuffer j)) = _
  rw [Sys.acquire, if_neg (by simp [Sys.setBuffer, hi]), hclear', Option.map_some]

/-- A locked object hands nothing over. -/
theorem acquireFrom_locked (h : Sound s) (hi : s.mLocked i = false) (hj : s.mLocked j = true) :
    ∃ s', s.acquireFrom i j = some s' ∧ Change s i none false s' := by
  obtain ⟨s', hclear, hc, hnone⟩ := clear_change h hi
  exact ⟨s', by simp [Sys.acquireFrom, Sys.release, hj, Sys.acquire, hi, hclear, Sys.setBuffer_same hnone], hc⟩

theorem acquireFrom_keeps (h : Sound s) (i j : ι) : ∃ s', s.acquireFrom i j = some s' ∧ Kept s s' none none := by
  cases hi : s.mLocked i with
  | true => exact ⟨s, by simp [Sys.acquireFrom, hi], .refl h⟩
  | false =>
    cases hj : s.mLocked j with
    | true =>
      obtain ⟨s', hacquire, hc⟩ := acquireFrom_locked h hi hj
      exact ⟨s', hacquire, hc.keeps h hi⟩
    | false =>
      by_cases hij : i = j
      · subst hij
        exact ⟨s, acquireFrom_self hi, .refl h⟩
      · obtain ⟨s', hclear, hc, hnone⟩ := clear_change h hi
        have hmoved : (s'.setBuffer j none).setBuffer i (s.mBuffer j) =
            (s'.setBuffer j (s'.mBuffer i)).setBuffer i (s'.mBuffer j) := by
          rw [hnone, hc.others.1 j (Ne.symm hij)]
        have hlocked := hc.others.2.2
        refine ⟨_, acquireFrom_other h hi hj hij hclear, ?_⟩
        rw [hmoved]
        exact (hc.keeps h hi).trans (swap_keeps (hc.sound h) (hlocked ▸ hi) (hlocked ▸ hj))

/-- Without memory to grow, the object's buffer is what is lost. -/
theorem grown_keeps (h : Sound s) (hi : s.mLocked i = false) {c : Bool} {v : Option β} {p q : Prop}
    (hspec : if mem = true ∨ c = false then p ∧ Change s i v false s'
      else q ∧ Change s i none (s.mBuffer i).isSome s') :
    Kept s s' (if mem = false ∧ c = true then s.mBuffer i else none) none := by
  split at hspec
  case isTrue hok =>
    rw [if_neg (by rcases hok with hok | hok <;> simp [hok])]
    exact hspec.2.keeps h hi
  case isFalse hfail =>
    rw [if_pos (by simpa using hfail)]
    have hkept := hspec.2.keeps h hi
    cases hslot : s.mBuffer i <;> simpa [hslot] using hkept

theorem append_keeps (h : Sound s) {other : Option Nat} (hp : ∀ a, other = some a → s.buffer a ≠ none)
    (hmisuse : ¬ NoAppend lib mem s i other) :
    ∃ st s', s.append lib mem i other = some (st, s') ∧ Kept s s' (lostAppend lib mem s i other) none := by
  unfold lostAppend
  cases hi : s.mLocked i with
  | true => exact ⟨.INVALID_OPERATION, s, if_pos hi, by simpa using Kept.refl h⟩
  | false =>
    obtain ⟨a, rfl⟩ : ∃ a, other = some a := by
      refine Option.ne_none_iff_exists'.mp fun hnull => hmisuse ⟨hi, ?_⟩
      simp [hnull]
    obtain ⟨src, hsrc⟩ := Option.ne_none_iff_exists'.mp (hp a rfl)
    have hclash : ¬ Clash lib mem s i (some a) (lib.entry_count src) (lib.data_count src) := by
      refine fun hclash => hmisuse ⟨hi, fun src' hsrc' => ?_⟩
      obtain rfl := Option.some.inj (hsrc.symm.trans hsrc')
      exact hclash
    obtain ⟨st, s', happend, hspec⟩ := append_change h hi hsrc hclash
    refine ⟨st, s', happend, ?_⟩
    simpa [hsrc] using grown_keeps h hi hspec

omit [DecidableEq ι] in
theorem checkType_eq (tag : BitVec 32) (type : EntryType) :
    checkType lib tag type = if lib.tag_type tag = some type then .OK else .INVALID_OPERATION := by
  unfold checkType
  cases lib.tag_type tag with
  | none => rfl
  | some t => by_cases ht : t = type <;> simp [ht]

/-- Data of the buffer itself is refused. -/
theorem updateImpl_own {tag : BitVec 32} {type : EntryType} (htype : lib.tag_type tag = some type) {data : List δ}
    {p : Option Nat} (hown : p.isSome ∧ p = s.mBuffer i) :
    s.updateImpl lib mem i tag data p = some (.INVALID_OPERATION, s) := by
  unfold Sys.updateImpl
  simp only [htype, if_pos hown, ite_self]

theorem update_keeps (h : Sound s) (type : EntryType) (tag : BitVec 32) (data : List δ) {p : Option Nat}
    (hp : ∀ a, p = some a → s.buffer a ≠ none) :
    ∃ st s', s.update lib mem i type tag data p = some (st, s') ∧
      Kept s s' (lostUpdate lib mem s i type tag data p) none := by
  unfold Sys.update lostUpdate
  cases hi : s.mLocked i with
  | true => exact ⟨.INVALID_OPERATION, s, if_pos rfl, by simpa using Kept.refl h⟩
  | false =>
    by_cases htype : lib.tag_type tag = some type
    · have hcheck : checkType lib tag type = .OK := by rw [checkType_eq, if_pos htype]
      rw [if_neg (by simp), if_neg (not_not.mpr hcheck)]
      by_cases hown : p.isSome ∧ p = s.mBuffer i
      · refine ⟨.INVALID_OPERATION, s, updateImpl_own htype hown, ?_⟩
        rw [if_neg fun hlost => hlost.2.2.2.1 hown]
        exact .refl h
      · obtain ⟨st, s', hupdate, hspec⟩ := updateImpl_change mem h hi htype data hown hp
        refine ⟨st, s', hupdate, ?_⟩
        have hkept := grown_keeps h hi hspec
        simpa [hcheck, hown] using hkept
    · have hcheck : checkType lib tag type = .INVALID_OPERATION := by rw [checkType_eq, if_neg htype]
      exact ⟨.INVALID_OPERATION, s, by simp [hcheck], by simpa [hcheck] using Kept.refl h⟩

variable (lib mem) in
theorem copy_keeps (h : Sound s) (hi : s.mBuffer i = none) (hlocked : s.mLocked i = false) (j : ι) :
    ∃ r, s.clone lib mem (s.mBuffer j) = some r ∧ Kept s (r.2.setBuffer i r.1) none none := by
  unfold Sys.clone
  cases hj : s.mBuffer j with
  | none => exact ⟨_, rfl, by simpa [Sys.setBuffer_same hi] using Kept.refl h⟩
  | some a =>
    obtain ⟨b, hb, -⟩ := h.content_some hj
    refine ⟨_, by simp only [hb, Option.map_some]; rfl, ?_⟩
    cases mem with
    | false => simpa [Sys.setBuffer_same hi] using Kept.refl h
    | true => exact (Change.filled (lib.clone b) hi).keeps h hlocked

theorem sort_keeps (h : Sound s) (i : ι) : ∃ st s', s.sort lib i = some (st, s') ∧ Kept s s' none none := by
  unfold Sys.sort
  cases hi : s.mLocked i with
  | true => exact ⟨_, s, rfl, .refl h⟩
  | false =>
    cases ha : s.mBuffer i with
    | none => exact ⟨_, s, rfl, .refl h⟩
    | some a =>
      obtain ⟨b, hb, -⟩ := h.content_some ha
      exact ⟨_, _, by simp [hb]; exact ⟨rfl, rfl⟩, (Change.wrote _ ha).keeps h hi⟩

theorem erase_keeps (h : Sound s) (i : ι) (tag : BitVec 32) :
    ∃ st s', s.erase lib i tag = some (st, s') ∧ Kept s s' none none := by
  unfold Sys.erase
  cases hi : s.mLocked i with
  | true => exact ⟨_, s, rfl, .refl h⟩
  | false =>
    cases ha : s.mBuffer i with
    | none => exact ⟨_, s, rfl, .refl h⟩
    | some a =>
      obtain ⟨b, hb, -⟩ := h.content_some ha
      cases hfind : lib.find b tag with
      | none => exact ⟨_, s, by simp [hb, hfind]; rfl, .refl h⟩
      | some index => exact ⟨_, _, by simp [hb, hfind]; exact ⟨rfl, rfl⟩, (Change.wrote _ ha).keeps h hi⟩

omit [DecidableEq ι] in
theorem findConst_content (h : Sound s) (i : ι) (tag : BitVec 32) :
    s.findConst lib i tag = some ((s.content i).bind fun b => lookup lib b tag) := by
  unfold Sys.findConst
  cases ha : s.mBuffer i with
  | none => rw [Sys.content, ha]; rfl
  | some a =>
    obtain ⟨b, hb, hcontent⟩ := h.content_some ha
    simp [hb, hcontent]

omit [DecidableEq ι] in
theorem entryCount_content (h : Sound s) (i : ι) :
    s.entryCount lib i = some ((s.content i).elim 0 lib.entry_count) := by
  unfold Sys.entryCount
  cases ha : s.mBuffer i with
  | none => rw [Sys.content, ha]; rfl
  | some a =>
    obtain ⟨b, hb, hcontent⟩ := h.content_some ha
    simp [hb, hcontent]

theorem readFromParcel_keeps (h : Sound s) (i : ι) (got : Except Status (Option β)) :
    ∃ st s', s.readFromParcel i got = some (st, s') ∧ Kept s s' none none := by
  unfold Sys.readFromParcel
  cases hi : s.mLocked i with
  | true => exact ⟨_, s, rfl, .refl h⟩
  | false =>
    match got with
    | .error res => exact ⟨res, s, rfl, .refl h⟩
    | .ok none =>
      obtain ⟨s', hclear, hkept⟩ := clear_keeps h i
      exact ⟨.OK, s', by simp [hclear], hkept⟩
    | .ok (some b) =>
      obtain ⟨s₁, hclear, hc⟩ := alloc_change h hi b
      exact ⟨.OK, _, by simp [hclear], hc.keeps h hi⟩

omit [DecidableEq ι] in
theorem done_keeps {x : Option (Sys ι β)} {lost back : Option Nat} (hx : ∃ s', x = some s' ∧ Kept s s' lost back) :
    ∃ (r : Ret δ) (s' : Sys ι β), x.map done = some (r, s') ∧ Kept s s' lost back := by
  obtain ⟨s', rfl, hkept⟩ := hx
  exact ⟨_, s', rfl, hkept⟩

omit [DecidableEq ι] in
theorem status_keeps {x : Option (Status × Sys ι β)} {lost back : Option Nat}
    (hx : ∃ st s', x = some (st, s') ∧ Kept s s' lost back) :
    ∃ (r : Ret δ) (s' : Sys ι β), x.map status = some (r, s') ∧ Kept s s' lost back := by
  obtain ⟨st, s', rfl, hkept⟩ := hx
  exact ⟨_, s', rfl, hkept⟩

omit [DecidableEq ι] in
theorem live_of_all {p : Option Nat} (hp : (p.all fun a => (s.buffer a).isSome) = true) :
    ∀ a, p = some a → s.buffer a ≠ none := by
  rintro a rfl
  exact Option.isSome_iff_ne_none.mp (by simpa using hp)

/-- What a call can do, whatever the memory. -/
theorem next_keeps (h : Sound s) {o : Op ι β δ × Bool} (hok : ok s o = true) (hmisuse : ¬ Misuse lib s o) :
    ∃ r s', next lib s o = some (r, s') ∧ Kept s s' (lostBy lib s o) (backBy s o) := by
  obtain ⟨op, mem⟩ := o
  have hown : ∀ j, ∀ a, s.mBuffer j = some a → s.buffer a ≠ none := fun j a => h.live j a
  cases op with
  | construct i e d =>
    obtain ⟨hi, hlocked⟩ : s.mBuffer i = none ∧ s.mLocked i = false := by simpa [ok] using hok
    cases mem with
    | false => exact ⟨_, s, by rw [next, if_neg (by simp), Sys.setBuffer_same hi]; rfl, .refl h⟩
    | true => exact ⟨_, _, rfl, (Change.filled _ hi).keeps h hlocked⟩
  | copy i j =>
    obtain ⟨hi, hlocked⟩ : s.mBuffer i = none ∧ s.mLocked i = false := by simpa [ok] using hok
    obtain ⟨r, hr, hkept⟩ := copy_keeps lib mem h hi hlocked j
    exact ⟨_, _, by rw [next, hr]; rfl, hkept⟩
  | destroy i => exact done_keeps (destroy_keeps h i)
  | assign i p => exact done_keeps (assign_keeps h i (live_of_all hok))
  | assignFrom i j => exact done_keeps (assign_keeps h i (hown j))
  | getAndLock i => exact ⟨_, _, rfl, lock_keeps h i true⟩
  | unlock i p =>
    refine ⟨_, _, rfl, ?_⟩
    unfold Sys.unlock backBy
    cases hi : s.mLocked i with
    | false => simpa [lostBy, hi, status] using Kept.refl h
    | true =>
      by_cases hp : p = s.mBuffer i
      · simpa [lostBy, hi, hp, status] using lock_keeps h i false
      · simpa [lostBy, hi, hp, status] using Kept.refl h
  | release i =>
    refine ⟨_, _, rfl, ?_⟩
    unfold Sys.release
    cases hi : s.mLocked i with
    | true =>
      have hnone : s.setClient none true = s := by simp [Sys.setClient]
      rw [if_pos rfl, hnone]
      exact .refl h
    | false => exact release_keeps h hi
  | clear i => exact done_keeps (clear_keeps h i)
  | acquire i p =>
    have hp : ∀ a, p = some a → s.client a = true := by
      rintro a rfl
      simpa [ok] using hok
    obtain ⟨s', hacquire, hkept⟩ := acquire_keeps h i hp
    exact ⟨_, _, by rw [next, hacquire]; rfl, hkept⟩
  | acquireFrom i j => exact done_keeps (acquireFrom_keeps h i j)
  | append i p => exact status_keeps (append_keeps h (live_of_all hok) hmisuse)
  | appendFrom i j => exact status_keeps (append_keeps h (hown j) hmisuse)
  | sort i => exact status_keeps (sort_keeps h i)
  | update i type tag data p => exact status_keeps (update_keeps h type tag data (live_of_all hok))
  | find i tag =>
    cases hi : s.mLocked i with
    | true => exact ⟨_, s, by simp [next, Sys.find, hi]; rfl, .refl h⟩
    | false => exact ⟨_, s, by simp [next, Sys.find, hi, findConst_content h]; rfl, .refl h⟩
  | findConst i tag => exact ⟨_, s, by simp [next, findConst_content h]; rfl, .refl h⟩
  | entryCount i => exact ⟨_, s, by simp [next, entryCount_content h]; rfl, .refl h⟩
  | erase i tag => exact status_keeps (erase_keeps h i tag)
  | readFromParcel i got => exact status_keeps (readFromParcel_keeps h i got)
  | swap i j =>
    refine ⟨_, _, rfl, ?_⟩
    unfold Sys.swap
    split
    case isTrue => exact .refl h
    case isFalse hi =>
      split
      case isTrue => exact .refl h
      case isFalse hj => exact swap_keeps h (Bool.eq_false_iff.mpr hi) (Bool.eq_false_iff.mpr hj)
  | give b => exact ⟨_, _, rfl, give_keeps h b⟩
  | free a =>
    obtain ⟨s', hfree, hkept⟩ := free_keeps h hok
    exact ⟨_, _, by rw [next, hfree]; rfl, hkept⟩

theorem noAppend_none (h : Sound s) {other : Option Nat} (hp : ∀ a, other = some a → s.buffer a ≠ none)
    (hno : NoAppend lib mem s i other) : s.append lib mem i other = none := by
  cases other with
  | none => exact append_null hno.1
  | some a =>
    obtain ⟨src, hsrc⟩ := Option.ne_none_iff_exists'.mp (hp a rfl)
    exact append_clash h hno.1 hsrc (hno.2 src hsrc)

theorem next_misuse (h : Sound s) {o : Op ι β δ × Bool} (hok : ok s o = true) (hmisuse : Misuse lib s o) :
    next lib s o = none := by
  obtain ⟨op, mem⟩ := o
  cases op with
  | append i p => rw [next, noAppend_none h (live_of_all hok) hmisuse, Option.map_none]
  | appendFrom i j => rw [next, noAppend_none h (fun a => h.live j a) hmisuse, Option.map_none]
  | _ => exact hmisuse.elim

theorem next_inv (h : Sound s) {o : Op ι β δ × Bool} (hok : ok s o = true) {r : Ret δ}
    (hnext : next lib s o = some (r, s')) : Kept s s' (lostBy lib s o) (backBy s o) := by
  have hmisuse : ¬ Misuse lib s o := fun hmisuse =>
    Option.some_ne_none _ (hnext.symm.trans (next_misuse h hok hmisuse))
  obtain ⟨r', s₁, hnext', hkept⟩ := next_keeps h hok hmisuse
  obtain ⟨-, rfl⟩ := Prod.mk.inj (Option.some.inj (hnext'.symm.trans hnext))
  exact hkept

def step (lib : Library β δ) (s : Sys ι β) (o : Op ι β δ × Bool) : Option (Sys ι β) := (next lib s o).map Prod.snd

theorem step_inv (h : Sound s) {o : Op ι β δ × Bool} (hok : ok s o = true) (hstep : step lib s o = some s') :
    Kept s s' (lostBy lib s o) (backBy s o) := by
  obtain ⟨⟨r, s'⟩, hnext, rfl⟩ := Option.map_eq_some_iff.mp hstep
  exact next_inv h hok hnext

/-- The states of all runs in which callers keep to the contract. -/
abbrev Run (lib : Library β δ) : Sys ι β → Prop :=
  Reach.Reachable (· = Sys.start) (fun s o s' => step lib s o = some s') fun s o => ok s o = true

theorem sound_run (hr : Run lib s) : Sound s := by
  refine Reach.Reachable.invariant (P := Sound) ?_ (fun _ _ _ h hok hstep => step_inv h hok hstep |>.sound) hr
  rintro _ rfl
  exact sound_start

/-- **Owners.**  In every run each buffer has exactly one owner or is leaked, and an owner's
buffer is there.  A call uses memory that is not there exactly if it is an `append` of a null
pointer or of a buffer that it frees; and a buffer is leaked exactly by an `append` or
`update` that has no memory to grow. -/
theorem owners (hr : Run lib s) :
    (∀ a, s.buffer a ≠ none ↔ s.leaked a ∨ ∃! o, Owns s o a) ∧
    ∀ o : Op ι β δ × Bool, ok s o = true → (next lib s o = none ↔ Misuse lib s o) ∧
      ∀ r s', next lib s o = some (r, s') → ∀ a, s'.leaked a ↔ s.leaked a ∨ lostBy lib s o = some a := by
  have h := sound_run hr
  refine ⟨fun a => ⟨fun ha => ?_, ?_⟩, fun o hok => ⟨⟨fun hnone => ?_, next_misuse h hok⟩, fun r s' hnext =>
    (next_inv h hok hnext).leaked⟩⟩
  · by_cases howned : ∃ o, Owns s o a
    · obtain ⟨o, ho⟩ := howned
      exact .inr ⟨o, ho, fun o' ho' => h.owner ho' ho⟩
    · exact .inl (leaked_owner.mpr ⟨ha, fun o ho => howned ⟨o, ho⟩⟩)
  · rintro (hleaked | ⟨o, ho, -⟩)
    · exact hleaked.1
    · cases o with
      | none => exact h.given a ho
      | some i => exact h.live i a ho
  · by_contra hmisuse
    obtain ⟨r, s', hnext, -⟩ := next_keeps h hok hmisuse
    cases hnone.symm.trans hnext

/-- A library as the documentation has it. -/
structure Plain where
  entries : List (Entry Nat)
  entryCapacity : Nat
  dataCapacity : Nat
  deriving DecidableEq

def EntryType.size : EntryType → Nat
  | .BYTE => 1
  | .INT32 => 4
  | .FLOAT => 4
  | .INT64 => 8
  | .DOUBLE => 8
  | .RATIONAL => 8

/-- Up to four bytes are in the entry itself. -/
def plainSize (type : EntryType) (n : Nat) : Nat := if n * type.size ≤ 4 then 0 else (n * type.size + 7) / 8 * 8

def plainType (tag : BitVec 32) : Option EntryType := if tag = 0 then none else some .INT32

def Plain.dataCount (b : Plain) : Nat := (b.entries.map fun e => (plainType e.1).elim 0 (plainSize · e.2.length)).sum

/-- The new entries, if there is room for them. -/
def Plain.become (b : Plain) (entries : List (Entry Nat)) : Status × Plain :=
  if entries.length ≤ b.entryCapacity ∧ ({ b with entries } : Plain).dataCount ≤ b.dataCapacity then
    (.OK, { b with entries })
  else (.ERROR, b)

def plain : Library Plain Nat where
  tag_type := plainType
  entry_data_size := plainSize
  allocate e d := ⟨[], e, d⟩
  clone b := ⟨b.entries, b.entries.length, b.dataCount⟩
  entries := Plain.entries
  entry_count b := b.entries.length
  entry_capacity := Plain.entryCapacity
  data_count := Plain.dataCount
  data_capacity := Plain.dataCapacity
  append dst src := dst.become (dst.entries ++ src.entries)
  find b tag := b.entries.findIdx? fun e => e.1 = tag
  add b e := b.become (b.entries ++ [e])
  update b k data :=
    let changed : Plain := { b with entries := b.entries.modify k fun e => (e.1, data) }
    if changed.dataCount ≤ b.dataCapacity then (.OK, changed) else (.ERROR, b)
  delete b k := (.OK, { b with entries := b.entries.eraseIdx k })
  sort b := (.OK, b)

/-- An object with one entry, and no room for a second one. -/
def full : Sys Unit Plain :=
  (((Sys.start).alloc ⟨[], 1, 0⟩).setBuffer () (some 0)).write 0 ⟨[(1, [5])], 1, 0⟩

theorem run_full : Run plain full :=
  .next (.next (.start rfl) (i := (.construct () 1 0, true)) rfl rfl)
    (i := (.update () .INT32 1 [5] none, true)) rfl rfl

/-- To append the object to itself is undefined, and without memory it loses the buffer. -/
theorem owners_full : next plain full (.appendFrom () (), true) = none ∧
    ∃ r s', next plain full (.appendFrom () (), false) = some (r, s') ∧ s'.leaked 0 := by
  have hop := (owners run_full).2
  refine ⟨(hop (.appendFrom () (), true) rfl).1.mpr ⟨rfl, fun src hsrc => ?_⟩, ?_⟩
  · obtain rfl : (⟨[(1, [5])], 1, 0⟩ : Plain) = src := Option.some.inj hsrc
    exact ⟨rfl, rfl, by decide⟩
  · obtain ⟨hdefined, hleaked⟩ := hop (.appendFrom () (), false) rfl
    cases hnext : next plain full (.appendFrom () (), false) with
    | none => exact absurd ((hdefined.mp hnext).2 ⟨[(1, [5])], 1, 0⟩ rfl).1 Bool.false_ne_true
    | some done => exact ⟨done.1, done.2, rfl, (hleaked done.1 done.2 hnext 0).mpr (.inr (by decide))⟩

/-- **Lent buffers.**  What a caller owns or has been lent stays as it is, whatever is called
on any object, until the caller gives it back. -/
theorem lent_kept (hr : Run lib s) (hl : Lent s a)
    (hs : Reach.Reachable (· = s) (fun s o s' => step lib s o = some s')
      (fun s o => ok s o = true ∧ backBy s o ≠ some a) s') :
    Lent s' a ∧ s'.buffer a = s.buffer a ∧ s.buffer a ≠ none := by
  have hlive : s.buffer a ≠ none := by
    rcases hl with hgiven | ⟨i, -, hslot⟩
    · exact (sound_run hr).given a hgiven
    · exact (sound_run hr).live i a hslot
  have hinv : Sound s' ∧ Lent s' a ∧ s'.buffer a = s.buffer a := by
    refine hs.invariant (P := fun s₁ => Sound s₁ ∧ Lent s₁ a ∧ s₁.buffer a = s.buffer a) ?_ ?_
    · rintro _ rfl
      exact ⟨sound_run hr, hl, rfl⟩
    rintro s₁ o s₂ ⟨h, hl₁, hbuffer⟩ ⟨hok, hback⟩ hstep
    have hkept := step_inv h hok hstep
    obtain ⟨hl₂, hsame⟩ := hkept.lent a hl₁ hback
    exact ⟨hkept.sound, hl₂, hsame.trans hbuffer⟩
  exact ⟨hinv.2.1, hinv.2.2, hlive⟩

def lentOut : Sys Unit Plain := (full.getAndLock ()).2

/-- The object is cleared, and a caller gets a buffer of its own. -/
theorem lent_kept_full : ((lentOut.alloc ⟨[], 3, 0⟩).setClient (some 1) true).buffer 0 = lentOut.buffer 0 :=
  (lent_kept (.next run_full (i := (.getAndLock (), true)) rfl rfl) (.inr ⟨(), rfl, rfl⟩)
    (.next (.next (.start rfl) (i := (.clear (), true)) ⟨rfl, by decide⟩ rfl) (i := (.give ⟨[], 3, 0⟩, true))
      ⟨rfl, by decide⟩ rfl)).2.1

end MochaHal.Camera.Metadata
