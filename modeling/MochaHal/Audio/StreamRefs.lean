import MochaHal.Audio.UseCount

/-! References of streams in `configmgr/audio_config.c`.  `open_stream_l` and
`release_stream` count the references of each stream, and through the paths of the
global device they count the streams that are open.  A step lemma says what one call
does to a stream's count and to the global device (`step_turn`); the theorem about
runs follows by induction (`ref_counts_exact`). -/

namespace MochaHal.Audio
open MochaHal.Reach MochaHal.Entries

/-! ## References held -/

/-- The stream that a call returns. -/
def Call.granted (cm : ConfigMgr) : Call → Option Nat
  | .getStream devices pcm => (Audio.getStream cm devices pcm).2.1
  | .getNamedStream name => (Audio.getNamedStream cm name).2.1
  | _ => none

/-- What a call adds to the references held on stream `i`. -/
def Call.change (cm : ConfigMgr) (i : Nat) (call : Call) : Int :=
  if call.granted cm = some i then 1 else if call = .releaseStream i then -1 else 0

/-- The references to stream `i` that were returned and not released. -/
def outstanding (log : List Event) (i : Nat) : Int := (log.map fun e => e.call.change e.before i).sum

theorem outstanding_append (log : List Event) (e : Event) (i : Nat) :
    outstanding (log ++ [e]) i = outstanding log i + e.call.change e.before i := by
  simp [outstanding]

/-- A release gives back a reference that is held. -/
def Matched (s : Session) : Call → Prop
  | .releaseStream i => 0 < outstanding s.log i
  | _ => True

instance (s : Session) (call : Call) : Decidable (Matched s call) :=
  match call with
  | .releaseStream i => inferInstanceAs (Decidable (0 < outstanding s.log i))
  | .getStream _ _ | .getNamedStream _ | .applyRoute _ _ => isTrue trivial

def Stream.isOpen (s : Stream) : Bool := 0 < s.ref_count

def ConfigMgr.openStreams (cm : ConfigMgr) : Nat := cm.streams.countP Stream.isOpen

/-- The global device has an "on" and an "off" path, which no stream uses as its own,
and a name is declared once. -/
structure GlobalPair (cm : ConfigMgr) : Prop where
  plain : PlainPaths cm
  named : cm.streams.Pairwise fun a b => a.name = b.name → a.name = none
  paths : ∃ g, globalDevice cm.devices = some g ∧ g.HasPath e_path_id_on ∧ g.HasPath e_path_id_off

/-! ## The global device -/

/-- The ids of the paths that were applied to the global device. -/
def globalIds (devs : List Device) (applied : List Applied) : List Int :=
  (applied.filter fun a => devs[a.device]?.map Device.type = some 0).map fun a => a.path.id

/-- The id of a path, if the device has it. -/
def definedId (dev : Device) (id : Int) : List Int := if dev.HasPath id then [id] else []

theorem globalIds_append (devs : List Device) (as bs : List Applied) :
    globalIds devs (as ++ bs) = globalIds devs as ++ globalIds devs bs := by
  simp [globalIds]

/-- Only the types count for the ids. -/
theorem globalIds_of_static {devs devs' : List Device} (h : devs'.map Device.static = devs.map Device.static)
    (applied : List Applied) : globalIds devs' applied = globalIds devs applied := by
  have htypes := types_of_static h
  have hat : ∀ k : Nat, devs'[k]?.map Device.type = devs[k]?.map Device.type := by
    intro k
    rw [← List.getElem?_map, ← List.getElem?_map]
    exact congrArg (fun ts : List Mask => ts[k]?) htypes
  unfold globalIds
  simp only [hat]

section

variable {first second : Int}

theorem applyPathsLoop_global (flag m : Mask) (i : Nat) (devs : List Device) :
    globalDevice (applyPathsLoop first second flag m i devs).1 = globalDevice devs := by
  induction devs generalizing m i with
  | nil => rfl
  | cons dev rest ih =>
    rw [applyPathsLoop_cons]
    by_cases htype : dev.type = 0
    · have hnot : ¬ Reaches flag m [] dev.type := fun hreach => hreach.meets (by rw [htype]; exact BitVec.zero_and)
      rw [visited, if_neg hnot]
      unfold globalDevice
      rw [List.find?_cons_of_pos (by simpa using htype), List.find?_cons_of_pos (by simpa using htype)]
    · have hvisited : ¬ (visited first second flag m [] dev).1.type = 0 := by
        unfold visited
        split
        · rw [show (applyPathsById dev first second).1.type = dev.type from
            congrArg Prod.fst (applyPathsById_static _ _ _)]
          exact htype
        · exact htype
      rw [globalDevice_cons_of_ne hvisited, globalDevice_cons_of_ne htype, ih]

/-- No device loop reaches the global device, whose type has no bit. -/
theorem applyPathsToDevices_global (devs : List Device) (m : Mask) :
    globalDevice (applyPathsToDevices devs m first second).1 = globalDevice devs ∧
      globalIds devs (applyPathsToDevices devs m first second).2 = [] := by
  refine ⟨applyPathsLoop_global _ _ _ _, ?_⟩
  rw [globalIds, List.map_eq_nil_iff]
  refine List.filter_eq_nil_iff.mpr fun a ha htype => ?_
  obtain ⟨dev, hdev, hreach, -⟩ := mem_applyPathsToDevices _ _ _ _ ha
  rw [hdev, decide_eq_true_eq, Option.map_some, Option.some.injEq] at htype
  refine hreach.meets ?_
  rw [htype]
  exact BitVec.zero_and

theorem applyGlobalLoop_at {devs : List Device} {g : Device} (hg : globalDevice devs = some g) (i : Nat) :
    globalDevice (applyGlobalLoop first second i devs).1 = some (applyPathsById g first second).1 ∧
      (applyGlobalLoop first second i devs).2.map Applied.path = (applyPathsById g first second).2 := by
  induction devs generalizing i with
  | nil => cases hg
  | cons dev rest ih =>
    rw [applyGlobalLoop]
    split
    case isTrue htype =>
      obtain rfl : dev = g := by
        rw [globalDevice, List.find?_cons_of_pos (by simpa using htype)] at hg
        exact Option.some.inj hg
      have htype' : (applyPathsById dev first second).1.type = 0 := by
        rw [← htype]
        exact congrArg Prod.fst (applyPathsById_static _ _ _)
      refine ⟨List.find?_cons_of_pos (by simpa using htype'), ?_⟩
      rw [List.map_map]
      exact List.map_id _
    case isFalse htype =>
      rw [globalDevice_cons_of_ne htype] at hg
      obtain ⟨hdev, hpaths⟩ := ih hg (i + 1)
      exact ⟨(globalDevice_cons_of_ne htype _).trans hdev, hpaths⟩

theorem applyPathsToGlobal_at {devs : List Device} {g : Device} (hg : globalDevice devs = some g) :
    globalDevice (applyPathsToGlobal devs first second).1 = some (applyPathsById g first second).1 ∧
      globalIds devs (applyPathsToGlobal devs first second).2 =
        (applyPathsById g first second).2.map Path.id := by
  obtain ⟨hdev, hpaths⟩ := @applyGlobalLoop_at first second devs g hg 0
  refine ⟨hdev, ?_⟩
  have hall : (applyPathsToGlobal devs first second).2.filter
      (fun a => devs[a.device]?.map Device.type = some 0) = (applyPathsToGlobal devs first second).2 := by
    refine List.filter_eq_self.mpr fun a ha => ?_
    obtain ⟨dev, hk, hfirst, -⟩ := mem_applyPathsToGlobal ha
    rw [hk, Option.map_some, globalDevice_type hfirst]
    rfl
  rw [globalIds, hall, ← hpaths, List.map_map]
  rfl

/-! ## Its two paths -/

/-- A path other than on and off that is looked for. -/
theorem applyFound_definedId {dev dev' : Device} {found : Option Path} {id : Int}
    (hplain : id ∉ [e_path_id_off, e_path_id_on]) (hids : ∀ p ∈ found, p.id = id ∧ p ∈ dev.paths)
    (hfound : dev.HasPath id → found.isSome = true) :
    (applyFound dev' found).1 = dev' ∧ (applyFound dev' found).2.map Path.id = definedId dev id := by
  refine ⟨(applyFound_custom fun p hp => (hids p hp).1 ▸ hplain).1, ?_⟩
  cases found with
  | none => exact (if_neg fun h => Bool.false_ne_true (hfound h)).symm
  | some p =>
    obtain ⟨hid, hmem⟩ := hids p rfl
    rw [← hid] at hplain
    rw [List.mem_cons, List.mem_singleton, not_or] at hplain
    rw [definedId, if_pos ⟨p, hmem, hid⟩, ← hid, applyFound, applyDevicePath, if_neg hplain.1,
      if_neg hplain.2]
    rfl

theorem findPaths_found (dev : Device) (first second : Int) :
    (∀ p ∈ (findPaths first second dev.paths (none, none)).1, p.id = first ∧ p ∈ dev.paths) ∧
      ∀ p ∈ (findPaths first second dev.paths (none, none)).2, p.id = second ∧ p ∈ dev.paths :=
  findPaths_all (fun _ hp h => ⟨h, hp⟩) (fun _ hp h => ⟨h, hp⟩) (fun _ h => (by cases h))
    (fun _ h => (by cases h))

/-- Opening: "on" for the first user, then the stream's own path. -/
theorem applyPathsById_on {g : Device} (hon : g.HasPath e_path_id_on) {id : Int}
    (hplain : id ∉ [e_path_id_off, e_path_id_on]) :
    (applyPathsById g e_path_id_on id).1.use_count = g.use_count + 1 ∧
      (applyPathsById g e_path_id_on id).2.map Path.id =
        (if g.use_count + 1 > 1 then [] else [e_path_id_on]) ++ definedId g id := by
  obtain ⟨h₁, h₂⟩ := findPaths_found g e_path_id_on id
  obtain ⟨p, hp⟩ := Option.isSome_iff_exists.mp
    (@findPaths_first e_path_id_on id g.paths (none, none) (Or.inl hon))
  have hne : e_path_id_on ≠ id := by
    rintro rfl
    exact hplain (by decide)
  obtain ⟨hdev, hids⟩ := @applyFound_definedId g (applyFound g (some p)).1 _ id hplain h₂
    fun h => findPaths_second hne (Or.inl h)
  have hpid : p.id = e_path_id_on := (h₁ p hp).1
  unfold applyPathsById
  dsimp only
  rw [hp, hdev, List.map_append, hids]
  refine ⟨(applyFound_on hpid).1, ?_⟩
  have hoff : ¬ p.id = e_path_id_off := by
    rw [hpid]
    decide
  rw [applyFound, applyDevicePath, if_neg hoff, if_pos hpid]
  dsimp only
  split
  · rfl
  · rw [List.map_singleton, hpid]

/-- Closing: the stream's own path, then "off" for the last user. -/
theorem applyPathsById_off {g : Device} (hoff : g.HasPath e_path_id_off) {id : Int}
    (hplain : id ∉ [e_path_id_off, e_path_id_on]) :
    (applyPathsById g id e_path_id_off).1.use_count = g.use_count - 1 ∧
      (applyPathsById g id e_path_id_off).2.map Path.id =
        definedId g id ++ if g.use_count - 1 > 0 then [] else [e_path_id_off] := by
  obtain ⟨h₁, h₂⟩ := findPaths_found g id e_path_id_off
  have hne : id ≠ e_path_id_off := by
    rintro rfl
    exact hplain (by decide)
  obtain ⟨p, hp⟩ := Option.isSome_iff_exists.mp
    (@findPaths_second id e_path_id_off g.paths (none, none) hne (Or.inl hoff))
  obtain ⟨hdev, hids⟩ := @applyFound_definedId g g _ id hplain h₁ fun h => findPaths_first (Or.inl h)
  have hpid : p.id = e_path_id_off := (h₂ p hp).1
  unfold applyPathsById
  dsimp only
  rw [hdev, hp, List.map_append, hids]
  refine ⟨(applyFound_off hpid).1, ?_⟩
  rw [applyFound, applyDevicePath, if_pos hpid]
  dsimp only
  split
  · rfl
  · rw [List.map_singleton, hpid]

end

/-! ## One call -/

/-- A stream apart from its references and devices. -/
def Stream.fixed (s : Stream) : StreamType × Option String × Int × Int × Int :=
  (s.type, s.name, s.max_ref_count, s.enable_path, s.disable_path)

/-- What a call does to the global device, along with the stream that it opens or
closes. -/
inductive GlobalTurn (cm cm' : ConfigMgr) (g g' : Device) (ids : List Int) : Prop
  | quiet (hsame : ∀ (i : Nat) (s s' : Stream), cm.streams[i]? = some s → cm'.streams[i]? = some s' →
        s'.isOpen = s.isOpen)
      (hopen : cm'.openStreams = cm.openStreams) (hg : g' = g) (hids : ids = [])
  | opens {i : Nat} {s s' : Stream} (hs : cm.streams[i]? = some s) (hset : cm'.streams = cm.streams.set i s')
      (hwas : s.ref_count = 0) (his : s'.ref_count = 1) (hcount : g'.use_count = g.use_count + 1)
      (hids : ids = (if g.use_count + 1 > 1 then [] else [e_path_id_on]) ++ definedId g s.enable_path)
  | closes {i : Nat} {s s' : Stream} (hs : cm.streams[i]? = some s) (hset : cm'.streams = cm.streams.set i s')
      (hwas : s.ref_count = 1) (his : s'.ref_count = 0) (hcount : g'.use_count = g.use_count - 1)
      (hids : ids = definedId g s.disable_path ++ if g.use_count - 1 > 0 then [] else [e_path_id_off])

structure Turn (cm : ConfigMgr) (call : Call) (r : ConfigMgr × List Applied) : Prop where
  fixed : r.1.streams.map Stream.fixed = cm.streams.map Stream.fixed
  static : r.1.devices.map Device.static = cm.devices.map Device.static
  refs : ∀ (j : Nat) (s : Stream), cm.streams[j]? = some s →
    ∃ s', r.1.streams[j]? = some s' ∧ s'.ref_count = s.ref_count + call.change cm j
  global : ∀ g, globalDevice cm.devices = some g →
    ∃ g', globalDevice r.1.devices = some g' ∧ GlobalTurn cm r.1 g g' (globalIds cm.devices r.2)

section

variable {cm : ConfigMgr} {call : Call} {i : Nat} {s s' : Stream}

/-- A call that changes the stream `i` only. -/
theorem turn_of_set (hs : cm.streams[i]? = some s) (hfixed : s'.fixed = s.fixed)
    (href : s'.ref_count = s.ref_count + call.change cm i) (hother : ∀ j ≠ i, call.change cm j = 0)
    {devs : List Device} (hstatic : devs.map Device.static = cm.devices.map Device.static)
    {applied : List Applied}
    (hglobal : ∀ g, globalDevice cm.devices = some g → ∃ g', globalDevice devs = some g' ∧
      GlobalTurn cm ⟨devs, cm.streams.set i s'⟩ g g' (globalIds cm.devices applied)) :
    Turn cm call (⟨devs, cm.streams.set i s'⟩, applied) := by
  refine ⟨map_set_same hs hfixed, hstatic, fun j sj hj => ?_, hglobal⟩
  obtain ⟨hlt, -⟩ := List.getElem?_eq_some_iff.mp hs
  by_cases hij : j = i
  · subst hij
    obtain rfl : s = sj := Option.some.inj (hs.symm.trans hj)
    exact ⟨s', List.getElem?_set_self hlt, href⟩
  · refine ⟨sj, ?_, by rw [hother j hij, Int.add_zero]⟩
    rw [List.getElem?_set_ne (Ne.symm hij)]
    exact hj

/-- A call that leaves the stream `i` open or closed. -/
theorem quiet_of_set (hs : cm.streams[i]? = some s) (hopen : s'.isOpen = s.isOpen) (devs : List Device)
    (g : Device) : GlobalTurn cm ⟨devs, cm.streams.set i s'⟩ g g [] := by
  refine .quiet (fun j sj sj' hj hj' => ?_) ?_ rfl rfl
  · obtain ⟨hlt, -⟩ := List.getElem?_eq_some_iff.mp hs
    by_cases hij : j = i
    · subst hij
      obtain rfl : s = sj := Option.some.inj (hs.symm.trans hj)
      obtain rfl : s' = sj' := Option.some.inj ((List.getElem?_set_self hlt).symm.trans hj')
      exact hopen
    · have hkept := List.getElem?_set_ne (Ne.symm hij) (l := cm.streams) (a := s')
      rw [Option.some.inj (hj'.symm.trans (hkept.trans hj))]
  · have hset := countP_set_add (p := Stream.isOpen) hs s'
    rw [hopen] at hset
    exact Nat.add_right_cancel hset

theorem turn_nothing (h : ∀ j, call.change cm j = 0) : Turn cm call (cm, []) :=
  ⟨rfl, rfl, fun j s hs => ⟨s, hs, by rw [h, Int.add_zero]⟩, fun g hg =>
    ⟨g, hg, .quiet (fun _ _ _ hs hs' => by rw [Option.some.inj (hs'.symm.trans hs)]) rfl rfl rfl⟩⟩

theorem change_of_granted (h : call.granted cm = some i) :
    call.change cm i = 1 ∧ ∀ j ≠ i, call.change cm j = 0 := by
  refine ⟨if_pos h, fun j hj => ?_⟩
  have hget : call ≠ .releaseStream j := by
    rintro rfl
    cases h
  rw [Call.change, if_neg (fun h' => hj (Option.some.inj (h'.symm.trans h))), if_neg hget]

theorem openStream_turn {r : ConfigMgr × List Applied} (hpair : GlobalPair cm)
    (hs : cm.streams[i]? = some s) (hnonneg : 0 ≤ s.ref_count) (hr : openStream cm i s = some r)
    (hgranted : call.granted cm = some i) : Turn cm call r := by
  obtain ⟨hchange, hother⟩ := change_of_granted hgranted
  obtain ⟨hmax, hr⟩ := Option.ite_none_right_eq_some.mp hr
  obtain rfl := Option.some.inj hr
  obtain ⟨hplain, -⟩ := hpair.plain s (List.mem_of_getElem? hs)
  dsimp only
  split
  case isTrue hfirst =>
    refine turn_of_set hs ?_ ?_ hother (applyGlobalLoop_static _ _ _ _) ?_
    · rfl
    · rw [hchange]
    · intro g hg
      obtain ⟨g₀, hg₀, hon, -⟩ := hpair.paths
      obtain rfl : g₀ = g := Option.some.inj (hg₀.symm.trans hg)
      obtain ⟨hdev, hids⟩ := @applyPathsToGlobal_at e_path_id_on s.enable_path _ _ hg
      obtain ⟨hcount, hmap⟩ := applyPathsById_on hon hplain
      exact ⟨_, hdev, .opens hs rfl (by omega) hfirst hcount (hids.trans hmap)⟩
  case isFalse hmore =>
    refine turn_of_set hs ?_ ?_ hother rfl ?_
    · rfl
    · rw [hchange]
    · intro g hg
      refine ⟨g, hg, quiet_of_set hs ?_ _ g⟩
      have hpos : 0 < s.ref_count := by omega
      have hpos' : 0 < s.ref_count + 1 := by omega
      exact decide_eq_decide.mpr (iff_of_true hpos' hpos)

theorem releaseStream_turn (hpair : GlobalPair cm) (hs : cm.streams[i]? = some s)
    (hpos : 0 < s.ref_count) : Turn cm (.releaseStream i) (releaseStream cm i s) := by
  have hchange : (Call.releaseStream i).change cm i = -1 := by simp [Call.change, Call.granted]
  have hother : ∀ j ≠ i, (Call.releaseStream i).change cm j = 0 := by
    intro j hj
    simp [Call.change, Call.granted, Ne.symm hj]
  obtain ⟨-, hplain⟩ := hpair.plain s (List.mem_of_getElem? hs)
  unfold releaseStream
  dsimp only
  split
  case isTrue hlast =>
    have hstatic := applyPathsToDevices_static cm.devices s.current_devices e_path_id_off s.disable_path
    refine turn_of_set hs ?_ ?_ hother ((applyGlobalLoop_static _ _ _ _).trans hstatic) ?_
    · rfl
    · rw [hchange]
      rfl
    · intro g hg
      obtain ⟨g₀, hg₀, -, hoff⟩ := hpair.paths
      obtain rfl : g₀ = g := Option.some.inj (hg₀.symm.trans hg)
      obtain ⟨hkept, hnone⟩ := @applyPathsToDevices_global e_path_id_off s.disable_path cm.devices
        s.current_devices
      obtain ⟨hdev, hids⟩ := @applyPathsToGlobal_at s.disable_path e_path_id_off _ _ (hkept.trans hg)
      obtain ⟨hcount, hmap⟩ := applyPathsById_off hoff hplain
      refine ⟨_, hdev, .closes hs rfl (by omega) hlast hcount ?_⟩
      rw [globalIds_append, hnone, List.nil_append, ← globalIds_of_static hstatic]
      exact hids.trans hmap
  case isFalse hmore =>
    refine turn_of_set hs ?_ ?_ hother rfl ?_
    · rfl
    · rw [hchange]
      rfl
    · intro g hg
      refine ⟨g, hg, quiet_of_set hs ?_ _ g⟩
      have hpos' : 0 < s.ref_count - 1 := by omega
      exact decide_eq_decide.mpr (iff_of_true hpos' hpos)

theorem applyRoute_turn {all : AllDevices} {devices : Mask} (hs : cm.streams[i]? = some s) :
    Turn cm (.applyRoute i devices) (applyRoute all cm i s devices) := by
  have hchange : ∀ j, (Call.applyRoute i devices).change cm j = 0 := by
    intro j
    simp [Call.change, Call.granted]
  unfold applyRoute
  cases newDevices all s devices with
  | none => exact turn_nothing hchange
  | some new =>
    have hstatic := applyPathsToDevices_static cm.devices (disabling s devices) s.disable_path e_path_id_off
    refine turn_of_set hs ?_ ?_ (fun j _ => hchange j)
      ((applyPathsToDevices_static _ _ _ _).trans hstatic) ?_
    · rfl
    · rw [hchange, Int.add_zero]
    · intro g hg
      obtain ⟨hdev₁, hnone₁⟩ := @applyPathsToDevices_global s.disable_path e_path_id_off cm.devices
        (disabling s devices)
      obtain ⟨hdev₂, hnone₂⟩ := @applyPathsToDevices_global e_path_id_on s.enable_path
        (applyPathsToDevices cm.devices (disabling s devices) s.disable_path e_path_id_off).1
        (enabling s devices)
      refine ⟨g, hdev₂.trans (hdev₁.trans hg), ?_⟩
      rw [globalIds_append, hnone₁, ← globalIds_of_static hstatic, hnone₂]
      refine quiet_of_set hs ?_ _ g
      rfl

theorem Opens.turn {wanted : Stream → Prop} {r : ConfigMgr × Option Nat × List Applied}
    (h : Opens cm wanted r) (hpair : GlobalPair cm) (hnonneg : ∀ s ∈ cm.streams, 0 ≤ s.ref_count)
    (hgranted : call.granted cm = r.2.1) (hget : ∀ j, call ≠ .releaseStream j) :
    Turn cm call (r.1, r.2.2) := by
  rcases h with rfl | ⟨i, s, r', hs, -, ho, rfl⟩
  · refine turn_nothing fun j => ?_
    rw [Call.change, hgranted, if_neg (by simp), if_neg (hget j)]
  · exact openStream_turn hpair hs (hnonneg s (List.mem_of_getElem? hs)) ho hgranted

/-- **Step lemma.** -/
theorem step_turn (all : AllDevices) (hpair : GlobalPair cm) (hnonneg : ∀ s ∈ cm.streams, 0 ≤ s.ref_count)
    (hheld : ∀ i s, call = .releaseStream i → cm.streams[i]? = some s → 0 < s.ref_count)
    (hvalid : call.Valid cm) : Turn cm call (cm.step all call) := by
  cases call with
  | getStream devices pcm =>
    exact (getStreamLoop_opens cm _ _).turn hpair hnonneg rfl (fun _ h => by cases h)
  | getNamedStream name =>
    exact (getNamedStream_opens cm name).turn hpair hnonneg rfl (fun _ h => by cases h)
  | applyRoute i devices =>
    have hs : cm.streams[i]? = some cm.streams[i] := List.getElem?_eq_getElem hvalid
    rw [ConfigMgr.step, hs]
    exact applyRoute_turn hs
  | releaseStream i =>
    have hs : cm.streams[i]? = some cm.streams[i] := List.getElem?_eq_getElem hvalid
    rw [ConfigMgr.step, hs]
    exact releaseStream_turn hpair hs (hheld i _ rfl hs)

end

/-! ## Calls that get nothing -/

def Call.isGet : Call → Bool
  | .getStream _ _ | .getNamedStream _ => true
  | .applyRoute _ _ | .releaseStream _ => false

/-- Every stream that the call wants is at its maximum. -/
def Exhausted (cm : ConfigMgr) (call : Call) : Prop :=
  ∀ s ∈ cm.streams, call.Wants s → s.max_ref_count ≤ s.ref_count

section

variable {cm : ConfigMgr}

theorem openStream_none {i : Nat} {s : Stream} :
    openStream cm i s = none ↔ s.max_ref_count ≤ s.ref_count := by
  unfold openStream
  dsimp only
  by_cases hmax : s.ref_count < s.max_ref_count
  · rw [if_pos hmax]
    exact ⟨fun h => (by cases h), fun h => by omega⟩
  · rw [if_neg hmax]
    exact ⟨fun _ => by omega, fun _ => rfl⟩

theorem getStreamLoop_none (type : StreamType) (n : Nat) :
    (getStreamLoop cm type n).2.1 = none ↔
      ∀ k < n, ∀ s, cm.streams[k]? = some s → s.type = type → s.max_ref_count ≤ s.ref_count := by
  induction n with
  | zero => exact ⟨fun _ k hk => absurd hk (Nat.not_lt_zero k), fun _ => rfl⟩
  | succ n ih =>
    -- stream n stands in the way only if it is of the type and below its maximum
    have hskip : (∀ s, cm.streams[n]? = some s → s.type = type → s.max_ref_count ≤ s.ref_count) →
        ((∀ k < n, ∀ s, cm.streams[k]? = some s → s.type = type → s.max_ref_count ≤ s.ref_count) ↔
          ∀ k < n + 1, ∀ s, cm.streams[k]? = some s → s.type = type → s.max_ref_count ≤ s.ref_count) := by
      intro hn
      refine ⟨fun h k hk => ?_, fun h k hk => h k (by omega)⟩
      by_cases hkn : k = n
      · exact hkn ▸ hn
      · exact h k (by omega)
    unfold getStreamLoop
    cases hs : cm.streams[n]? with
    | none => exact ih.trans (hskip fun s h => by rw [hs] at h; cases h)
    | some s =>
      have hself : ∀ s', cm.streams[n]? = some s' → s' = s :=
        fun s' h => Option.some.inj (h.symm.trans hs)
      dsimp only
      split
      case isTrue htype =>
        cases ho : openStream cm n s with
        | none =>
          exact ih.trans (hskip fun s' h _ => hself s' h ▸ openStream_none.mp ho)
        | some r =>
          refine ⟨fun h => (by cases h), fun h => ?_⟩
          have hfull := (@openStream_none cm n s).mpr (h n (Nat.lt_succ_self n) s hs htype)
          rw [ho] at hfull
          cases hfull
      case isFalse htype => exact ih.trans (hskip fun s' h ht => absurd (hself s' h ▸ ht) htype)

theorem getStream_none (devices : Mask) (pcm : Bool) :
    (getStream cm devices pcm).2.1 = none ↔ Exhausted cm (.getStream devices pcm) := by
  refine (getStreamLoop_none _ _).trans ⟨fun h s hmem => ?_, fun h k _ s hs => ?_⟩
  · obtain ⟨k, hs⟩ := List.mem_iff_getElem?.mp hmem
    obtain ⟨hlt, -⟩ := List.getElem?_eq_some_iff.mp hs
    exact h k hlt s hs
  · exact h s (List.mem_of_getElem? hs)

/-- A name is declared once, so the stream found is the only one that is wanted. -/
theorem getNamedStream_none (hpair : GlobalPair cm) (name : String) :
    (getNamedStream cm name).2.1 = none ↔ Exhausted cm (.getNamedStream name) := by
  unfold getNamedStream
  cases hi : cm.streams.findIdx? fun s => s.name = some name with
  | none =>
    refine ⟨fun _ s hmem hname => ?_, fun _ => rfl⟩
    have hnot := List.findIdx?_eq_none_iff.mp hi s hmem
    exact absurd hname (of_decide_eq_false hnot)
  | some i =>
    obtain ⟨hlt, hname, hbefore⟩ := List.findIdx?_eq_some_iff_getElem.mp hi
    have hname : cm.streams[i].name = some name := of_decide_eq_true hname
    have hs : cm.streams[i]? = some cm.streams[i] := List.getElem?_eq_getElem hlt
    have honly : ∀ s ∈ cm.streams, s.name = some name → s = cm.streams[i] := by
      intro s hmem hsname
      obtain ⟨j, hj, rfl⟩ := List.getElem_of_mem hmem
      by_contra hne
      have hij : i ≠ j := fun h => hne (by subst h; rfl)
      have hpairwise := List.pairwise_iff_getElem.mp hpair.named
      rcases Nat.lt_or_gt_of_ne hij with hlt' | hlt'
      · have := hpairwise i j hlt hj hlt' (hname.trans hsname.symm)
        rw [hname] at this
        cases this
      · have := hpairwise j i hj hlt hlt' (hsname.trans hname.symm)
        rw [hsname] at this
        cases this
    have hexhausted : Exhausted cm (.getNamedStream name) ↔
        cm.streams[i].max_ref_count ≤ cm.streams[i].ref_count :=
      ⟨fun h => h _ (List.getElem_mem hlt) hname, fun h s hmem hsname => honly s hmem hsname ▸ h⟩
    dsimp only
    rw [hs, hexhausted, ← @openStream_none cm i]
    dsimp only
    cases openStream cm i cm.streams[i] with
    | none => exact ⟨fun _ => rfl, fun _ => rfl⟩
    | some r => exact ⟨fun h => (by cases h), fun h => (by cases h)⟩

end

/-! ## Runs -/

/-- A get fails when every wanted stream is at its maximum, and only then. -/
def Event.GetExact (e : Event) : Prop :=
  e.call.isGet = true → (e.call.granted e.before = none ↔ Exhausted e.before e.call)

def Event.globalIds (e : Event) : List Int := Audio.globalIds e.before.devices e.applied

/-- "on" when the first stream is opened. -/
def Event.onIds (e : Event) : List Int :=
  if e.before.openStreams = 0 ∧ e.after.openStreams = 1 then [e_path_id_on] else []

/-- "off" when the last stream is closed. -/
def Event.offIds (e : Event) : List Int :=
  if e.before.openStreams = 1 ∧ e.after.openStreams = 0 then [e_path_id_off] else []

/-- The paths of the global device `g` are applied when the first stream is opened, the
last one closed, and when a stream is opened or closed for its own path. -/
structure Event.GlobalExact (e : Event) (g : Device) : Prop where
  on : e.globalIds.filter (· = e_path_id_on) = e.onIds
  off : e.globalIds.filter (· = e_path_id_off) = e.offIds
  enable : ∀ (i : Nat) (s s' : Stream), e.before.streams[i]? = some s → e.after.streams[i]? = some s' →
    s.ref_count = 0 → s'.ref_count = 1 → e.globalIds = e.onIds ++ definedId g s.enable_path
  disable : ∀ (i : Nat) (s s' : Stream), e.before.streams[i]? = some s → e.after.streams[i]? = some s' →
    s.ref_count = 1 → s'.ref_count = 0 → e.globalIds = definedId g s.disable_path ++ e.offIds
  quiet : (∀ (i : Nat) (s s' : Stream), e.before.streams[i]? = some s → e.after.streams[i]? = some s' →
    s'.isOpen = s.isOpen) → e.globalIds = []

theorem definedId_filter {g : Device} {id : Int} (hplain : id ∉ [e_path_id_off, e_path_id_on]) {x : Int}
    (hx : x ∈ [e_path_id_off, e_path_id_on]) : (definedId g id).filter (· = x) = [] := by
  refine List.filter_eq_nil_iff.mpr fun y hy hyx => ?_
  have hyid : y = id := by
    unfold definedId at hy
    split at hy
    · exact List.mem_singleton.mp hy
    · exact absurd hy List.not_mem_nil
  rw [← hyid, of_decide_eq_true hyx] at hplain
  exact hplain hx

/-- The stream that is not as it was is the one that was set. -/
theorem index_of_set {streams : List Stream} {i j : Nat} {t s s' : Stream} (hs : streams[j]? = some s)
    (hs' : (streams.set i t)[j]? = some s') (hne : s'.ref_count ≠ s.ref_count) : j = i ∧ s' = t := by
  rw [List.getElem?_set] at hs'
  split at hs'
  case isTrue hij =>
    split at hs'
    · exact ⟨hij.symm, (Option.some.inj hs').symm⟩
    · cases hs'
  case isFalse =>
    rw [Option.some.inj (hs'.symm.trans hs)] at hne
    exact absurd rfl hne

/-- The one stream that was set is opened or closed, so nothing else is and the call is not
quiet. -/
theorem moved_of_set {cm cm' : ConfigMgr} {i : Nat} {s s' : Stream} (hs : cm.streams[i]? = some s)
    (hset : cm'.streams = cm.streams.set i s') (hmoved : s'.isOpen ≠ s.isOpen) :
    (∀ (j : Nat) (t t' : Stream), cm.streams[j]? = some t → cm'.streams[j]? = some t' →
        t'.ref_count ≠ t.ref_count → t = s ∧ t' = s') ∧
      ¬ ∀ (j : Nat) (t t' : Stream), cm.streams[j]? = some t → cm'.streams[j]? = some t' →
        t'.isOpen = t.isOpen := by
  constructor
  · intro j t t' ht ht' hne
    rw [hset] at ht'
    obtain ⟨rfl, rfl⟩ := index_of_set ht ht' hne
    exact ⟨Option.some.inj (ht.symm.trans hs), rfl⟩
  · intro hsame
    have hlt := (List.getElem?_eq_some_iff.mp hs).1
    exact hmoved (hsame i s s' hs (by rw [hset]; exact List.getElem?_set_self hlt))

section

variable {e : Event} {g : Device}

theorem onIds_filter : e.onIds.filter (· = e_path_id_on) = e.onIds ∧ e.onIds.filter (· = e_path_id_off) = [] := by
  unfold Event.onIds
  split_ifs <;> exact ⟨rfl, rfl⟩

theorem offIds_filter : e.offIds.filter (· = e_path_id_off) = e.offIds ∧ e.offIds.filter (· = e_path_id_on) = [] := by
  unfold Event.offIds
  split_ifs <;> exact ⟨rfl, rfl⟩

/-- A call that opens stream `i`. -/
theorem exact_of_opens {i : Nat} {s s' : Stream} (hpair : GlobalPair e.before) (hs : e.before.streams[i]? = some s)
    (hset : e.after.streams = e.before.streams.set i s') (hwas : s.ref_count = 0) (his : s'.ref_count = 1)
    (hopen : e.after.openStreams = e.before.openStreams + 1)
    (hids : e.globalIds = e.onIds ++ definedId g s.enable_path) : e.GlobalExact g := by
  obtain ⟨hplain, -⟩ := hpair.plain s (List.mem_of_getElem? hs)
  obtain ⟨honly, hnot⟩ := moved_of_set hs hset (by simp [Stream.isOpen, hwas, his])
  have hoff : e.offIds = [] := if_neg (by omega)
  refine ⟨?_, ?_, ?_, ?_, fun hsame => absurd hsame hnot⟩
  · rw [hids, List.filter_append, definedId_filter hplain (by decide), List.append_nil, onIds_filter.1]
  · rw [hids, List.filter_append, definedId_filter hplain (by decide), List.append_nil, onIds_filter.2, hoff]
  · intro j t t' ht ht' hwas' his'
    obtain ⟨rfl, -⟩ := honly j t t' ht ht' (by omega)
    exact hids
  · intro j t t' ht ht' hwas' his'
    obtain ⟨rfl, rfl⟩ := honly j t t' ht ht' (by omega)
    omega

/-- A call that closes stream `i`. -/
theorem exact_of_closes {i : Nat} {s s' : Stream} (hpair : GlobalPair e.before) (hs : e.before.streams[i]? = some s)
    (hset : e.after.streams = e.before.streams.set i s') (hwas : s.ref_count = 1) (his : s'.ref_count = 0)
    (hopen : e.after.openStreams + 1 = e.before.openStreams)
    (hids : e.globalIds = definedId g s.disable_path ++ e.offIds) : e.GlobalExact g := by
  obtain ⟨-, hplain⟩ := hpair.plain s (List.mem_of_getElem? hs)
  obtain ⟨honly, hnot⟩ := moved_of_set hs hset (by simp [Stream.isOpen, hwas, his])
  have hon : e.onIds = [] := if_neg (by omega)
  refine ⟨?_, ?_, ?_, ?_, fun hsame => absurd hsame hnot⟩
  · rw [hids, List.filter_append, definedId_filter hplain (by decide), List.nil_append, offIds_filter.2, hon]
  · rw [hids, List.filter_append, definedId_filter hplain (by decide), List.nil_append, offIds_filter.1]
  · intro j t t' ht ht' hwas' his'
    obtain ⟨rfl, rfl⟩ := honly j t t' ht ht' (by omega)
    omega
  · intro j t t' ht ht' hwas' his'
    obtain ⟨rfl, -⟩ := honly j t t' ht ht' (by omega)
    exact hids

/-- A call that opens and closes nothing. -/
theorem exact_of_quiet (hsame : ∀ (i : Nat) (s s' : Stream), e.before.streams[i]? = some s →
      e.after.streams[i]? = some s' → s'.isOpen = s.isOpen)
    (hopen : e.after.openStreams = e.before.openStreams) (hids : e.globalIds = []) : e.GlobalExact g := by
  have hon : e.onIds = [] := if_neg (by omega)
  have hoff : e.offIds = [] := if_neg (by omega)
  refine ⟨by rw [hids, hon]; rfl, by rw [hids, hoff]; rfl, ?_, ?_, fun _ => hids⟩
  · intro i s s' hs hs' hwas his
    have hopen := hsame i s s' hs hs'
    simp [Stream.isOpen, hwas, his] at hopen
  · intro i s s' hs hs' hwas his
    have hopen := hsame i s s' hs hs'
    simp [Stream.isOpen, hwas, his] at hopen

theorem GlobalTurn.exact {g' : Device} (h : GlobalTurn e.before e.after g g' e.globalIds)
    (hpair : GlobalPair e.before) (hcount : g.use_count = e.before.openStreams) :
    g'.use_count = e.after.openStreams ∧ e.GlobalExact g := by
  cases h with
  | quiet hsame hopen hg hids =>
    rw [hg, hcount, hopen]
    exact ⟨rfl, exact_of_quiet hsame hopen hids⟩
  | @opens i s s' hs hset hwas his hcount' hids =>
    have hopen : e.after.openStreams = e.before.openStreams + 1 := by
      have := countP_set_add (p := Stream.isOpen) hs s'
      rw [← hset] at this
      simpa [ConfigMgr.openStreams, Stream.isOpen, hwas, his] using this
    refine ⟨by omega, exact_of_opens hpair hs hset hwas his hopen ?_⟩
    rw [hids, Event.onIds]
    congr 1
    split_ifs <;> first | rfl | omega
  | @closes i s s' hs hset hwas his hcount' hids =>
    have hopen : e.after.openStreams + 1 = e.before.openStreams := by
      have := countP_set_add (p := Stream.isOpen) hs s'
      rw [← hset] at this
      simpa [ConfigMgr.openStreams, Stream.isOpen, hwas, his] using this
    refine ⟨by omega, exact_of_closes hpair hs hset hwas his hopen ?_⟩
    rw [hids, Event.offIds]
    congr 1
    split_ifs <;> first | rfl | omega

end

/-- What holds of the streams and the global device at every point of a run. -/
structure RefsInv (s : Session) : Prop where
  pair : GlobalPair s.cm
  counts : ∀ (i : Nat) (st : Stream), s.cm.streams[i]? = some st → st.ref_count = outstanding s.log i ∧
    0 ≤ st.ref_count ∧ st.ref_count ≤ max 0 st.max_ref_count
  users : ∀ g, globalDevice s.cm.devices = some g → g.use_count = s.cm.openStreams

theorem GlobalPair.of_turn {cm : ConfigMgr} {call : Call} {r : ConfigMgr × List Applied}
    (h : GlobalPair cm) (hturn : Turn cm call r) : GlobalPair r.1 := by
  have hfixed : ∀ s' ∈ r.1.streams, ∃ s ∈ cm.streams, s.fixed = s'.fixed := by
    intro s' hs'
    have hmem := List.mem_map_of_mem (f := Stream.fixed) hs'
    rw [hturn.fixed] at hmem
    exact List.mem_map.mp hmem
  refine ⟨fun s' hs' => ?_, ?_, ?_⟩
  · obtain ⟨s, hs, heq⟩ := hfixed s' hs'
    obtain ⟨-, -, -, hen, hdis⟩ : s.type = s'.type ∧ s.name = s'.name ∧
        s.max_ref_count = s'.max_ref_count ∧ s.enable_path = s'.enable_path ∧
        s.disable_path = s'.disable_path := by simpa [Stream.fixed] using heq
    exact hen ▸ hdis ▸ h.plain s hs
  · have hnames : r.1.streams.map Stream.name = cm.streams.map Stream.name := by
      have := congrArg (List.map fun f => f.2.1) hturn.fixed
      rwa [List.map_map, List.map_map] at this
    have hold := List.pairwise_map (R := fun a b : Option String => a = b → a = none).mpr h.named
    exact List.pairwise_map (R := fun a b : Option String => a = b → a = none).mp (hnames ▸ hold)
  · obtain ⟨g, hg, hon, hoff⟩ := h.paths
    obtain ⟨g', hg', -⟩ := hturn.global g hg
    have hpaths : g.paths = g'.paths := by
      have hfind := globalDevice_of_static hturn.static
      rw [hg, hg', Option.map_some, Option.map_some, Option.some.injEq] at hfind
      exact (congrArg Prod.snd hfind).symm
    refine ⟨g', hg', ?_, ?_⟩
    · unfold Device.HasPath
      rw [← hpaths]
      exact hon
    · unfold Device.HasPath
      rw [← hpaths]
      exact hoff

theorem RefsInv.start {s : Session} (hparsed : s.cm.Parsed) (hpair : GlobalPair s.cm) (hlog : s.log = []) :
    RefsInv s := by
  refine ⟨hpair, fun i st hs => ?_, fun g hg => ?_⟩
  · obtain ⟨hclosed, -⟩ := hparsed.closed st (List.mem_of_getElem? hs)
    rw [hlog, hclosed]
    exact ⟨rfl, le_refl 0, le_max_left 0 _⟩
  · rw [hparsed.unused g (List.mem_of_find?_eq_some hg)]
    refine (Int.natCast_eq_zero.mpr (List.countP_eq_zero.mpr fun st hst => ?_)).symm
    simp [Stream.isOpen, (hparsed.closed st hst).1]

/-- A count moves below the maximum, or down to a reference less. -/
theorem change_bound {cm : ConfigMgr} {call : Call} {i : Nat} {st : Stream} (hs : cm.streams[i]? = some st)
    (hnonneg : 0 ≤ st.ref_count) (hmax : st.ref_count ≤ max 0 st.max_ref_count)
    (hheld : call = .releaseStream i → 0 < st.ref_count) :
    0 ≤ st.ref_count + call.change cm i ∧ st.ref_count + call.change cm i ≤ max 0 st.max_ref_count := by
  unfold Call.change
  split
  case isTrue hgranted =>
    have hbelow : st.ref_count < st.max_ref_count := by
      have hopens : ∀ {wanted : Stream → Prop} {r : ConfigMgr × Option Nat × List Applied},
          Opens cm wanted r → r.2.1 = some i → st.ref_count < st.max_ref_count := by
        rintro wanted r (rfl | ⟨j, s, r', hj, -, ho, rfl⟩) hi
        · cases hi
        · obtain rfl := Option.some.inj hi
          obtain rfl : st = s := Option.some.inj (hs.symm.trans hj)
          exact (Option.ite_none_right_eq_some.mp ho).1
      cases call with
      | getStream devices pcm => exact hopens (getStreamLoop_opens cm _ _) hgranted
      | getNamedStream name => exact hopens (getNamedStream_opens cm name) hgranted
      | applyRoute j devices => cases hgranted
      | releaseStream j => cases hgranted
    omega
  case isFalse =>
    split
    case isTrue hrelease =>
      have := hheld hrelease
      omega
    case isFalse => omega

/-- **Step lemma for a session.** -/
theorem RefsInv.step {all : AllDevices} {s s' : Session} {call : Call} (h : RefsInv s)
    (hmatched : Matched s call) (hs : s.step all call = some s') :
    RefsInv s' ∧ ∃ e, s'.log = s.log ++ [e] ∧ e.GetExact ∧
      ∀ g ∈ globalDevice e.before.devices, e.GlobalExact g := by
  obtain ⟨hvalid, hs⟩ := Option.ite_none_right_eq_some.mp hs
  obtain rfl := Option.some.inj hs
  have hheld : ∀ i st, call = .releaseStream i → s.cm.streams[i]? = some st → 0 < st.ref_count := by
    rintro i st rfl hst
    rw [(h.counts i st hst).1]
    exact hmatched
  have hnonneg : ∀ st ∈ s.cm.streams, 0 ≤ st.ref_count := by
    intro st hst
    obtain ⟨i, hi⟩ := List.mem_iff_getElem?.mp hst
    exact (h.counts i st hi).2.1
  have hturn := step_turn all h.pair hnonneg hheld hvalid
  refine ⟨⟨h.pair.of_turn hturn, fun i st' hst' => ?_, fun g' hg' => ?_⟩, _, rfl, fun hget => ?_, fun g hg => ?_⟩
  · -- a stream of the new manager was there before, with the same maximum
    have hmax := congrArg (fun l => l[i]?) hturn.fixed
    simp only [List.getElem?_map, hst', Option.map_some] at hmax
    obtain ⟨st, hst, hfixed⟩ := Option.map_eq_some_iff.mp hmax.symm
    obtain ⟨st'', hst'', href⟩ := hturn.refs i st hst
    obtain rfl : st' = st'' := Option.some.inj (hst'.symm.trans hst'')
    obtain ⟨hcount, hlow, hhigh⟩ := h.counts i st hst
    have hbound := change_bound hst hlow hhigh fun hrelease => hheld i st hrelease hst
    have hmax : st.max_ref_count = st'.max_ref_count := congrArg (fun f => f.2.2.1) hfixed
    rw [outstanding_append, href, ← hmax]
    exact ⟨congrArg (· + _) hcount, hbound⟩
  · obtain ⟨g, hg, -⟩ := h.pair.paths
    obtain ⟨g'', hg'', hglobal⟩ := hturn.global g hg
    obtain rfl : g' = g'' := Option.some.inj (hg'.symm.trans hg'')
    exact (GlobalTurn.exact (e := ⟨s.cm, call, _, _⟩) hglobal h.pair (h.users g hg)).1
  · cases call with
    | getStream devices pcm => exact getStream_none devices pcm
    | getNamedStream name => exact getNamedStream_none h.pair name
    | applyRoute i devices => cases hget
    | releaseStream i => cases hget
  · obtain ⟨g', -, hglobal⟩ := hturn.global g hg
    exact (GlobalTurn.exact (e := ⟨s.cm, call, _, _⟩) hglobal h.pair (h.users g hg)).2

/-- Sessions reached from a configuration with both global paths, each release giving
back a reference that is held. -/
abbrev RefRun (all : AllDevices) : Session → Prop :=
  Reachable (fun s => s.cm.Parsed ∧ GlobalPair s.cm ∧ s.log = [])
    (fun s call s' => s.step all call = some s') Matched

/-- **References and global paths.** -/
theorem ref_counts_exact (all : AllDevices) (s : Session) (h : RefRun all s) :
    (∀ (i : Nat) (st : Stream), s.cm.streams[i]? = some st → st.ref_count = outstanding s.log i ∧
        0 ≤ st.ref_count ∧ st.ref_count ≤ max 0 st.max_ref_count) ∧
      ∀ e ∈ s.log, e.GetExact ∧ ∀ g ∈ globalDevice e.before.devices, e.GlobalExact g := by
  have hinv : RefsInv s ∧
      ∀ e ∈ s.log, e.GetExact ∧ ∀ g ∈ globalDevice e.before.devices, e.GlobalExact g := by
    refine Reachable.invariant (P := fun s => RefsInv s ∧
      ∀ e ∈ s.log, e.GetExact ∧ ∀ g ∈ globalDevice e.before.devices, e.GlobalExact g) ?_ ?_ h
    · rintro s ⟨hparsed, hpair, hlog⟩
      refine ⟨.start hparsed hpair hlog, fun e he => ?_⟩
      rw [hlog] at he
      exact absurd he List.not_mem_nil
    · intro s call s' ih hmatched hs
      obtain ⟨hinv, e', hlog, hexact⟩ := ih.1.step hmatched hs
      refine ⟨hinv, fun e he => ?_⟩
      rw [hlog] at he
      rcases List.mem_append.mp he with he | he
      · exact ih.2 e he
      · obtain rfl := List.mem_singleton.mp he
        exact hexact
  exact ⟨hinv.1.counts, hinv.2⟩

/-- Global paths for both counts, a playback stream for two users and a named one. -/
def countedConfig : ConfigMgr where
  devices :=
    [⟨AUDIO_DEVICE_OUT_SPEAKER, 0, pathsWith [e_path_id_on, 2]⟩,
     ⟨0, 0, pathsWith [e_path_id_on, e_path_id_off, 2, 3]⟩]
  streams := [⟨.out_pcm, none, 0, 2, 2, 3, 0⟩, ⟨.in_hw, some "voice trigger", 0, 1, -1, -1, 0⟩]

/-- The third `get_stream` finds the stream at its maximum. -/
def countedCalls : List Call :=
  [.getStream AUDIO_DEVICE_OUT_SPEAKER true, .getStream AUDIO_DEVICE_OUT_SPEAKER true,
    .getStream AUDIO_DEVICE_OUT_SPEAKER true, .getNamedStream "voice trigger",
    .applyRoute 0 AUDIO_DEVICE_OUT_SPEAKER, .releaseStream 0, .releaseStream 0, .releaseStream 1]

def countedEnd : Option Session :=
  countedCalls.foldlM (fun s call => if Matched s call then s.step platformDevices call else none)
    ⟨countedConfig, []⟩

theorem ref_counts_exact_shared :
    countedEnd.map (fun s => s.log.map fun e => (e.call.granted e.before, e.globalIds)) =
        some [(some 0, [e_path_id_on, 2]), (some 0, []), (none, []), (some 1, []), (none, []), (none, []),
          (none, [3]), (none, [e_path_id_off])] ∧
      ∀ s ∈ countedEnd, (∀ (i : Nat) (st : Stream), s.cm.streams[i]? = some st →
          st.ref_count = outstanding s.log i ∧ 0 ≤ st.ref_count ∧ st.ref_count ≤ max 0 st.max_ref_count) ∧
        ∀ e ∈ s.log, e.GetExact ∧ ∀ g ∈ globalDevice e.before.devices, e.GlobalExact g :=
  ⟨by decide, fun s hs => ref_counts_exact platformDevices s (reachable_foldlM countedCalls
    (.start ⟨⟨by decide, by decide, by decide, by decide⟩,
      ⟨by decide, by decide, _, rfl, by decide, by decide⟩, rfl⟩) hs)⟩

/-- A stream with the attribute `instances="0xFFFFFFFF"`, which is stored in an int. -/
def negativeConfig : ConfigMgr where
  devices := [⟨0, 0, pathsWith [e_path_id_on, e_path_id_off]⟩]
  streams := [⟨.out_pcm, none, 0, -1, -1, -1, 0⟩]

/-- No count lies between 0 and a negative maximum. -/
theorem negative_maximum :
    ¬ ∀ (all : AllDevices) (s : Session), RefRun all s →
      (∀ (i : Nat) (st : Stream), s.cm.streams[i]? = some st → st.ref_count = outstanding s.log i ∧
          0 ≤ st.ref_count ∧ st.ref_count ≤ st.max_ref_count) ∧
        ∀ e ∈ s.log, e.GetExact ∧ ∀ g ∈ globalDevice e.before.devices, e.GlobalExact g := by
  intro h
  have hrun : RefRun platformDevices ⟨negativeConfig, []⟩ :=
    .start ⟨⟨by decide, by decide, by decide, by decide⟩,
      ⟨by decide, by decide, _, rfl, by decide, by decide⟩, rfl⟩
  have hcount := ((h platformDevices _ hrun).1 0 _ rfl).2.2
  revert hcount
  decide

end MochaHal.Audio
