import MochaHal.Lib.Bits
import MochaHal.Audio.Routing

/-! What the loops over the device table do, device by device.  A device is reached
by a mask if it passes the direction test and has a bit of the mask that no earlier
device which passes the test has (`Reaches`).  Reached devices get both paths applied
and every other device stays as it is (`applyPathsToDevices_getElem?`,
`applyPathsToDevices_filter`). -/

namespace MochaHal.Audio
open MochaHal.Bits

/-! ## The paths of one device -/

section

variable {first second : Int} {paths : List Path} {found : Option Path × Option Path}

/-- What holds of the paths with the two ids holds of the paths found. -/
theorem findPaths_all {P Q : Path → Prop} (hP : ∀ p ∈ paths, p.id = first → P p)
    (hQ : ∀ p ∈ paths, p.id = second → Q p) (h₁ : ∀ p ∈ found.1, P p) (h₂ : ∀ p ∈ found.2, Q p) :
    (∀ p ∈ (findPaths first second paths found).1, P p) ∧
      ∀ p ∈ (findPaths first second paths found).2, Q p := by
  induction paths generalizing found with
  | nil => exact ⟨h₁, h₂⟩
  | cons path rest ih =>
    have hP' : ∀ p ∈ rest, p.id = first → P p := fun p hp => hP p (List.mem_cons_of_mem _ hp)
    have hQ' : ∀ p ∈ rest, p.id = second → Q p := fun p hp => hQ p (List.mem_cons_of_mem _ hp)
    rw [findPaths]
    split
    case isTrue hid =>
      have hnew : ∀ p ∈ some path, P p := by
        intro p hp
        obtain rfl := Option.mem_some_iff.mp hp
        exact hP path List.mem_cons_self hid
      split
      · exact ⟨hnew, h₂⟩
      · exact ih hP' hQ' hnew h₂
    case isFalse =>
      split
      case isTrue hid =>
        have hnew : ∀ p ∈ some path, Q p := by
          intro p hp
          obtain rfl := Option.mem_some_iff.mp hp
          exact hQ path List.mem_cons_self hid
        split
        · exact ⟨h₁, hnew⟩
        · exact ih hP' hQ' h₁ hnew
      case isFalse => exact ih hP' hQ' h₁ h₂

theorem findPaths_first (h : (∃ p ∈ paths, p.id = first) ∨ found.1.isSome = true) :
    (findPaths first second paths found).1.isSome = true := by
  induction paths generalizing found with
  | nil =>
    rcases h with ⟨p, hp, -⟩ | h
    · exact absurd hp List.not_mem_nil
    · exact h
  | cons path rest ih =>
    rw [findPaths]
    split
    case isTrue hid =>
      split
      · rfl
      · exact ih (Or.inr rfl)
    case isFalse hid =>
      have h' : (∃ p ∈ rest, p.id = first) ∨ found.1.isSome = true := by
        rcases h with ⟨p, hp, hpid⟩ | h
        · rcases List.mem_cons.mp hp with rfl | hp
          · exact absurd hpid hid
          · exact Or.inl ⟨p, hp, hpid⟩
        · exact Or.inr h
      split
      · split
        case isTrue hsome => exact hsome
        case isFalse => exact ih h'
      · exact ih h'

theorem findPaths_second (hne : first ≠ second)
    (h : (∃ p ∈ paths, p.id = second) ∨ found.2.isSome = true) :
    (findPaths first second paths found).2.isSome = true := by
  induction paths generalizing found with
  | nil =>
    rcases h with ⟨p, hp, -⟩ | h
    · exact absurd hp List.not_mem_nil
    · exact h
  | cons path rest ih =>
    have hrest : path.id ≠ second → (∃ p ∈ rest, p.id = second) ∨ found.2.isSome = true := by
      intro hid
      rcases h with ⟨p, hp, hpid⟩ | h
      · rcases List.mem_cons.mp hp with rfl | hp
        · exact absurd hpid hid
        · exact Or.inl ⟨p, hp, hpid⟩
      · exact Or.inr h
    rw [findPaths]
    split
    case isTrue hid =>
      split
      case isTrue hstop => exact hstop.resolve_right hne
      case isFalse => exact ih (hrest (hid ▸ hne))
    case isFalse =>
      split
      case isTrue =>
        split
        · rfl
        · exact ih (Or.inr rfl)
      case isFalse hid => exact ih (hrest hid)

end

/-- A device apart from its count, which is all that applying paths changes. -/
def Device.static (dev : Device) : Mask × List Path := (dev.type, dev.paths)

theorem applyDevicePath_static (dev : Device) (path : Path) :
    (applyDevicePath dev path).1.static = dev.static := by
  unfold applyDevicePath
  dsimp only
  split_ifs <;> rfl

theorem applyFound_static (dev : Device) (found : Option Path) :
    (applyFound dev found).1.static = dev.static := by
  cases found with
  | none => rfl
  | some path => exact applyDevicePath_static dev path

theorem applyPathsById_static (dev : Device) (first second : Int) :
    (applyPathsById dev first second).1.static = dev.static :=
  (applyFound_static _ _).trans (applyFound_static dev _)

theorem mem_applyFound {dev : Device} {found : Option Path} {p : Path}
    (hp : p ∈ (applyFound dev found).2) : p ∈ found := by
  cases found with
  | none => exact absurd hp List.not_mem_nil
  | some path =>
    unfold applyFound applyDevicePath at hp
    dsimp only at hp
    split_ifs at hp <;> simp_all

/-- Only the device's own paths with one of the two ids are applied. -/
theorem mem_applyPathsById {dev : Device} {first second : Int} {p : Path}
    (hp : p ∈ (applyPathsById dev first second).2) :
    p ∈ dev.paths ∧ (p.id = first ∨ p.id = second) := by
  have hall := @findPaths_all first second dev.paths (none, none)
    (fun p => p ∈ dev.paths ∧ p.id = first) (fun p => p ∈ dev.paths ∧ p.id = second)
    (fun p hp hid => ⟨hp, hid⟩) (fun p hp hid => ⟨hp, hid⟩) (fun _ h => (by cases h))
    (fun _ h => (by cases h))
  rcases List.mem_append.mp hp with hp | hp
  · obtain ⟨hmem, hid⟩ := hall.1 p (mem_applyFound hp)
    exact ⟨hmem, Or.inl hid⟩
  · obtain ⟨hmem, hid⟩ := hall.2 p (mem_applyFound hp)
    exact ⟨hmem, Or.inr hid⟩

/-! ## Reached devices -/

/-- The bits of the types that pass the direction test. -/
def seen (flag : Mask) : List Mask → Mask
  | [] => 0
  | t :: ts => if t &&& flag = flag then t ||| seen flag ts else seen flag ts

theorem seen_cons (flag t : Mask) (ts : List Mask) : seen flag (t :: ts) =
    if t &&& flag = flag then t ||| seen flag ts else seen flag ts := rfl

/-- A device of type `t` is reached by `m` when it comes after the types `before`. -/
def Reaches (flag m : Mask) (before : List Mask) (t : Mask) : Prop :=
  t &&& flag = flag ∧ t &&& (m &&& ~~~seen flag before) ≠ 0

instance (flag m : Mask) (before : List Mask) (t : Mask) : Decidable (Reaches flag m before t) :=
  inferInstanceAs (Decidable (_ ∧ _))

/-- The mask that is left behind a device of type `t`. -/
def left (flag m t : Mask) : Mask := if t &&& flag = flag ∧ t &&& m ≠ 0 then m &&& ~~~t else m

theorem left_and_not_seen (flag m t : Mask) (before : List Mask) :
    left flag m t &&& ~~~seen flag before = m &&& ~~~seen flag (t :: before) := by
  rw [left, seen_cons]
  by_cases hflag : t &&& flag = flag
  · rw [if_pos hflag, and_not_or]
    by_cases hm : t &&& m = 0
    · rw [if_neg (fun h => h.2 hm), and_not_of_disjoint hm]
    · rw [if_pos ⟨hflag, hm⟩]
  · rw [if_neg hflag, if_neg (fun h => hflag h.1)]

theorem reaches_left (flag m t u : Mask) (before : List Mask) :
    Reaches flag (left flag m t) before u ↔ Reaches flag m (t :: before) u := by
  unfold Reaches
  rw [left_and_not_seen]

/-- The first device is reached if it passes the test of the loop. -/
theorem reaches_nil (flag m t : Mask) :
    Reaches flag m [] t ↔ t &&& flag = flag ∧ t &&& m ≠ 0 := by
  unfold Reaches seen
  rw [show m &&& ~~~(0 : Mask) = m from BitVec.and_allOnes]

theorem not_reaches_zero (flag : Mask) (before : List Mask) (t : Mask) : ¬ Reaches flag 0 before t := by
  rintro ⟨-, h⟩
  refine h ?_
  rw [show (0 : Mask) &&& ~~~seen flag before = 0 from BitVec.zero_and]
  exact BitVec.and_zero

theorem Reaches.meets {flag m : Mask} {before : List Mask} {t : Mask} (h : Reaches flag m before t) :
    t &&& m ≠ 0 := by
  obtain ⟨i, ht, hm⟩ := and_ne_zero_iff.mp h.2
  rw [BitVec.getLsbD_and, Bool.and_eq_true] at hm
  exact and_ne_zero_iff.mpr ⟨i, ht, hm.1⟩

/-! ## The loop over the table -/

/-- A device that comes after the types `before`, and what is applied to it. -/
def visited (first second : Int) (flag m : Mask) (before : List Mask) (dev : Device) :
    Device × List Path :=
  if Reaches flag m before dev.type then applyPathsById dev first second else (dev, [])

def types (devs : List Device) : List Mask := devs.map Device.type

section

variable {first second : Int} {flag : Mask}

theorem visited_left (m t : Mask) (before : List Mask) (dev : Device) :
    visited first second flag (left flag m t) before dev =
      visited first second flag m (t :: before) dev := by
  unfold visited
  simp only [reaches_left]

theorem applyPathsLoop_zero (i : Nat) (devs : List Device) :
    applyPathsLoop first second flag 0 i devs = (devs, []) := by
  cases devs with
  | nil => rfl
  | cons dev rest => exact if_pos rfl

/-- The loop in one equation: the head is visited and the rest sees what is left. -/
theorem applyPathsLoop_cons (m : Mask) (i : Nat) (dev : Device) (rest : List Device) :
    applyPathsLoop first second flag m i (dev :: rest) =
      ((visited first second flag m [] dev).1 ::
          (applyPathsLoop first second flag (left flag m dev.type) (i + 1) rest).1,
        (visited first second flag m [] dev).2.map (Applied.mk i) ++
          (applyPathsLoop first second flag (left flag m dev.type) (i + 1) rest).2) := by
  by_cases hm : m = 0
  · subst hm
    have hleft : left flag 0 dev.type = 0 := if_neg fun h => h.2 BitVec.and_zero
    rw [visited, if_neg (not_reaches_zero _ _ _), hleft, applyPathsLoop_zero, applyPathsLoop_zero]
    rfl
  · rw [applyPathsLoop, if_neg hm, visited, left]
    simp only [reaches_nil]
    split
    case isTrue => rfl
    case isFalse => rfl

theorem applyPathsLoop_getElem? (m : Mask) (i k : Nat) (devs : List Device) :
    (applyPathsLoop first second flag m i devs).1[k]? =
      devs[k]?.map fun dev => (visited first second flag m ((types devs).take k) dev).1 := by
  induction devs generalizing m i k with
  | nil => rfl
  | cons dev rest ih =>
    rw [applyPathsLoop_cons]
    cases k with
    | zero => rfl
    | succ k =>
      rw [List.getElem?_cons_succ, List.getElem?_cons_succ, ih]
      simp only [visited_left]
      rfl

theorem applyPathsLoop_device {m : Mask} {i : Nat} {devs : List Device} {a : Applied}
    (ha : a ∈ (applyPathsLoop first second flag m i devs).2) : i ≤ a.device := by
  induction devs generalizing m i with
  | nil => exact absurd ha List.not_mem_nil
  | cons dev rest ih =>
    rw [applyPathsLoop_cons] at ha
    rcases List.mem_append.mp ha with ha | ha
    · obtain ⟨p, -, rfl⟩ := List.mem_map.mp ha
      exact Nat.le_refl i
    · have := ih ha
      omega

theorem applyPathsLoop_filter (m : Mask) (i k : Nat) (devs : List Device) :
    (applyPathsLoop first second flag m i devs).2.filter (fun a => a.device = i + k) =
      (devs[k]?.map fun dev =>
        (visited first second flag m ((types devs).take k) dev).2.map (Applied.mk (i + k))).getD [] := by
  induction devs generalizing m i k with
  | nil => rfl
  | cons dev rest ih =>
    rw [applyPathsLoop_cons, List.filter_append]
    cases k with
    | zero =>
      have hhead : ((visited first second flag m [] dev).2.map (Applied.mk i)).filter
          (fun a => a.device = i + 0) = (visited first second flag m [] dev).2.map (Applied.mk i) := by
        refine List.filter_eq_self.mpr fun a ha => ?_
        obtain ⟨p, -, rfl⟩ := List.mem_map.mp ha
        simp
      have htail : (applyPathsLoop first second flag (left flag m dev.type) (i + 1) rest).2.filter
          (fun a => a.device = i + 0) = [] := by
        refine List.filter_eq_nil_iff.mpr fun a ha => ?_
        have := applyPathsLoop_device ha
        simp
        omega
      rw [hhead, htail]
      exact List.append_nil _
    | succ k =>
      have hhead : ((visited first second flag m [] dev).2.map (Applied.mk i)).filter
          (fun a => a.device = i + (k + 1)) = [] := by
        refine List.filter_eq_nil_iff.mpr fun a ha => ?_
        obtain ⟨p, -, rfl⟩ := List.mem_map.mp ha
        simp
      rw [hhead, List.nil_append, show i + (k + 1) = i + 1 + k by omega, ih]
      simp only [visited_left]
      rfl

end

/-! ## apply_paths_to_devices_l -/

/-- A device of type `t` behind the types `before` is reached by the devices `m`. -/
def ReachedBy (m : Mask) (before : List Mask) (t : Mask) : Prop :=
  Reaches (m &&& AUDIO_DEVICE_BIT_IN) (m &&& ~~~AUDIO_DEVICE_BIT_IN) before t

instance (m : Mask) (before : List Mask) (t : Mask) : Decidable (ReachedBy m before t) :=
  inferInstanceAs (Decidable (Reaches _ _ _ _))

/-- What `apply_paths_to_devices_l` does to one device. -/
def visit (first second : Int) (m : Mask) (before : List Mask) (dev : Device) : Device × List Path :=
  visited first second (m &&& AUDIO_DEVICE_BIT_IN) (m &&& ~~~AUDIO_DEVICE_BIT_IN) before dev

section

variable (devs : List Device) (m : Mask) (first second : Int)

theorem applyPathsToDevices_getElem? (k : Nat) :
    (applyPathsToDevices devs m first second).1[k]? =
      devs[k]?.map fun dev => (visit first second m ((types devs).take k) dev).1 :=
  applyPathsLoop_getElem? _ _ _ _

theorem applyPathsToDevices_filter (k : Nat) :
    (applyPathsToDevices devs m first second).2.filter (fun a => a.device = k) =
      (devs[k]?.map fun dev =>
        (visit first second m ((types devs).take k) dev).2.map (Applied.mk k)).getD [] := by
  have h := @applyPathsLoop_filter first second (m &&& AUDIO_DEVICE_BIT_IN)
    (m &&& ~~~AUDIO_DEVICE_BIT_IN) 0 k devs
  rw [Nat.zero_add] at h
  exact h

theorem mem_applyPathsToDevices {a : Applied} (ha : a ∈ (applyPathsToDevices devs m first second).2) :
    ∃ dev, devs[a.device]? = some dev ∧ ReachedBy m ((types devs).take a.device) dev.type ∧
      a.path ∈ (applyPathsById dev first second).2 := by
  have hmem : a ∈ (applyPathsToDevices devs m first second).2.filter (fun b => b.device = a.device) :=
    List.mem_filter.mpr ⟨ha, by simp⟩
  rw [applyPathsToDevices_filter] at hmem
  cases hdev : devs[a.device]? with
  | none =>
    rw [hdev] at hmem
    exact absurd hmem List.not_mem_nil
  | some dev =>
    rw [hdev] at hmem
    obtain ⟨p, hp, hpa⟩ := List.mem_map.mp hmem
    have hpath : a.path = p := by rw [← hpa]
    rw [visit, visited] at hp
    split at hp
    case isTrue hreach => exact ⟨dev, rfl, hreach, hpath ▸ hp⟩
    case isFalse => exact absurd hp List.not_mem_nil

end

theorem applyPathsToDevices_static (devs : List Device) (m : Mask) (first second : Int) :
    (applyPathsToDevices devs m first second).1.map Device.static = devs.map Device.static := by
  refine List.ext_getElem? fun k => ?_
  rw [List.getElem?_map, List.getElem?_map, applyPathsToDevices_getElem?, Option.map_map]
  refine congrArg (fun f => devs[k]?.map f) (funext fun dev => ?_)
  show (visit _ _ _ _ dev).1.static = dev.static
  unfold visit visited
  split
  · exact applyPathsById_static _ _ _
  · rfl

/-- Lists with the same static parts have the same types. -/
theorem types_of_static {devs devs' : List Device}
    (h : devs'.map Device.static = devs.map Device.static) : types devs' = types devs := by
  have := congrArg (List.map Prod.fst) h
  rwa [List.map_map, List.map_map] at this

theorem getElem?_of_static {devs devs' : List Device} {k : Nat} {dev' : Device}
    (h : devs'.map Device.static = devs.map Device.static) (hk : devs'[k]? = some dev') :
    ∃ dev, devs[k]? = some dev ∧ dev.type = dev'.type ∧ dev.paths = dev'.paths := by
  have hstatic := congrArg (fun l => l[k]?) h
  simp only [List.getElem?_map, hk, Option.map_some] at hstatic
  obtain ⟨dev, hdev, heq⟩ := Option.map_eq_some_iff.mp hstatic.symm
  exact ⟨dev, hdev, congrArg Prod.fst heq, congrArg Prod.snd heq⟩

/-! ## apply_paths_to_global_l -/

theorem applyGlobalLoop_static (first second : Int) (i : Nat) (devs : List Device) :
    (applyGlobalLoop first second i devs).1.map Device.static = devs.map Device.static := by
  induction devs generalizing i with
  | nil => rfl
  | cons dev rest ih =>
    rw [applyGlobalLoop]
    split
    · exact congrArg (· :: _) (applyPathsById_static _ _ _)
    · exact congrArg (_ :: ·) (ih _)

/-- The global device, which is the first of type 0. -/
def globalDevice (devs : List Device) : Option Device := devs.find? fun dev => dev.type = 0

def Device.HasPath (dev : Device) (id : Int) : Prop := ∃ p ∈ dev.paths, p.id = id

instance (dev : Device) (id : Int) : Decidable (dev.HasPath id) :=
  inferInstanceAs (Decidable (∃ p ∈ dev.paths, p.id = id))

/-- There is no global path `id`. -/
def GlobalLacks (devs : List Device) (id : Int) : Prop := ∀ dev ∈ globalDevice devs, ¬ dev.HasPath id

instance (devs : List Device) (id : Int) : Decidable (GlobalLacks devs id) :=
  inferInstanceAs (Decidable (∀ dev ∈ globalDevice devs, _))

theorem globalDevice_cons_of_ne {dev : Device} (h : ¬ dev.type = 0) (rest : List Device) :
    globalDevice (dev :: rest) = globalDevice rest :=
  List.find?_cons_of_neg (by simpa using h)

theorem globalDevice_type {devs : List Device} {dev : Device} (h : globalDevice devs = some dev) :
    dev.type = 0 := by
  have hfound := List.find?_some h
  exact of_decide_eq_true hfound

theorem globalDevice_of_static {devs devs' : List Device}
    (h : devs'.map Device.static = devs.map Device.static) :
    (globalDevice devs').map Device.static = (globalDevice devs).map Device.static := by
  have hfind := congrArg (List.find? fun st => st.1 = 0) h
  rw [List.find?_map, List.find?_map] at hfind
  exact hfind

theorem GlobalLacks.of_static {devs devs' : List Device} {id : Int}
    (h : devs'.map Device.static = devs.map Device.static) (hl : GlobalLacks devs id) :
    GlobalLacks devs' id := by
  intro dev' hdev'
  have hfind := globalDevice_of_static h
  rw [Option.mem_def.mp hdev', Option.map_some] at hfind
  obtain ⟨dev, hdev, heq⟩ := Option.map_eq_some_iff.mp hfind.symm
  have hpaths : dev.paths = dev'.paths := congrArg Prod.snd heq
  rintro ⟨p, hp, hid⟩
  exact hl dev hdev ⟨p, hpaths ▸ hp, hid⟩

theorem mem_applyGlobalLoop {first second : Int} {i : Nat} {devs : List Device} {a : Applied}
    (ha : a ∈ (applyGlobalLoop first second i devs).2) :
    ∃ k dev, a.device = i + k ∧ devs[k]? = some dev ∧ globalDevice devs = some dev ∧
      a.path ∈ dev.paths ∧ (a.path.id = first ∨ a.path.id = second) := by
  induction devs generalizing i with
  | nil => exact absurd ha List.not_mem_nil
  | cons d rest ih =>
    rw [applyGlobalLoop] at ha
    split at ha
    case isTrue hd =>
      obtain ⟨p, hp, rfl⟩ := List.mem_map.mp ha
      exact ⟨0, d, rfl, rfl, List.find?_cons_of_pos (by simpa using hd), mem_applyPathsById hp⟩
    case isFalse hd =>
      obtain ⟨k, dev, hk, hdev, hfirst, hpath⟩ := ih ha
      exact ⟨k + 1, dev, by omega, hdev, (globalDevice_cons_of_ne hd rest).trans hfirst, hpath⟩

/-- Global paths belong to the global device. -/
theorem mem_applyPathsToGlobal {devs : List Device} {first second : Int} {a : Applied}
    (ha : a ∈ (applyPathsToGlobal devs first second).2) :
    ∃ dev, devs[a.device]? = some dev ∧ globalDevice devs = some dev ∧ a.path ∈ dev.paths ∧
      (a.path.id = first ∨ a.path.id = second) := by
  obtain ⟨k, dev, hk, hdev, hrest⟩ := mem_applyGlobalLoop ha
  rw [Nat.zero_add] at hk
  exact ⟨dev, hk ▸ hdev, hrest⟩

/-! ## get_stream and get_named_stream -/

/-- A stream that was wanted is opened, or nothing has happened. -/
def Opens (cm : ConfigMgr) (wanted : Stream → Prop) (r : ConfigMgr × Option Nat × List Applied) : Prop :=
  r = (cm, none, []) ∨ ∃ i s r', cm.streams[i]? = some s ∧ wanted s ∧ openStream cm i s = some r' ∧
    r = (r'.1, some i, r'.2)

theorem getStreamLoop_opens (cm : ConfigMgr) (type : StreamType) (n : Nat) :
    Opens cm (fun s => s.type = type) (getStreamLoop cm type n) := by
  induction n with
  | zero => exact Or.inl rfl
  | succ n ih =>
    unfold getStreamLoop
    cases hs : cm.streams[n]? with
    | none => exact ih
    | some s =>
      dsimp only
      split
      case isTrue htype =>
        cases ho : openStream cm n s with
        | none => exact ih
        | some r => exact Or.inr ⟨n, s, r, hs, htype, ho, rfl⟩
      case isFalse => exact ih

theorem getNamedStream_opens (cm : ConfigMgr) (name : String) :
    Opens cm (fun s => s.name = some name) (getNamedStream cm name) := by
  unfold getNamedStream
  cases hi : cm.streams.findIdx? fun s => s.name = some name with
  | none => exact Or.inl rfl
  | some i =>
    obtain ⟨hlt, hname, -⟩ := List.findIdx?_eq_some_iff_getElem.mp hi
    have hs : cm.streams[i]? = some cm.streams[i] := List.getElem?_eq_getElem hlt
    dsimp only
    rw [hs]
    dsimp only
    cases ho : openStream cm i cm.streams[i] with
    | none => exact Or.inl rfl
    | some r => exact Or.inr ⟨i, _, r, hs, of_decide_eq_true hname, ho, rfl⟩

/-- The streams that a call may open. -/
def Call.Wants (s : Stream) : Call → Prop
  | .getStream devices pcm => s.type = requiredType devices pcm
  | .getNamedStream name => s.name = some name
  | _ => False

instance (s : Stream) (call : Call) : Decidable (call.Wants s) :=
  match call with
  | .getStream devices pcm => inferInstanceAs (Decidable (s.type = requiredType devices pcm))
  | .getNamedStream name => inferInstanceAs (Decidable (s.name = some name))
  | .applyRoute _ _ | .releaseStream _ => isFalse not_false

/-- Opening a stream that the call wants applies its global paths; `ok` is asked for
then. -/
def WhenOpened (cm : ConfigMgr) (call : Call) (ok : Stream → Prop) : Prop :=
  ∀ s ∈ cm.streams, call.Wants s → s.ref_count = 0 → 0 < s.max_ref_count → ok s

instance (cm : ConfigMgr) (call : Call) (ok : Stream → Prop) [DecidablePred ok] :
    Decidable (WhenOpened cm call ok) :=
  inferInstanceAs (Decidable (∀ s ∈ cm.streams, _ → _ → _ → _))

end MochaHal.Audio
