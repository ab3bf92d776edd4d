import MochaHal.Audio.StreamRefs

/-! The control writes of `release_stream` against those of `apply_route` with no
devices.  Both disconnect the devices of the stream, the first with the ids "off" and
disable path, the second with the disable path and "off".  The writes are the same if
and only if, at every device reached, the two paths write the same in either order or
"off" is not applied (`loop_writes_iff`, `release_writes_iff`). -/

namespace MochaHal.Audio
open MochaHal.Reach

variable {W : Type}

/-! ## Writes -/

/-- `apply_ctls_l`, which stops at a control that cannot be opened; `set` gives the writes
to the mixer for one that can.  Bytes that are merged into an array are one write of these
bytes. -/
def applyCtls (set : Ctl → Option (List W)) : List Ctl → List W
  | [] => []
  | ctl :: rest =>
    match set ctl with
    | none => []
    | some ws => ws ++ applyCtls set rest

def pathWrites (set : Ctl → Option (List W)) (p : Path) : List W := applyCtls set p.ctls

/-- The writes of everything that was applied, in order. -/
def writes (set : Ctl → Option (List W)) (applied : List Applied) : List W :=
  applied.flatMap fun a => pathWrites set a.path

/-- The writes of paths that were applied to one device. -/
def writesOf (set : Ctl → Option (List W)) (ps : List Path) : List W := ps.flatMap (pathWrites set)

variable {set : Ctl → Option (List W)}

theorem writes_append (as bs : List Applied) : writes set (as ++ bs) = writes set as ++ writes set bs :=
  List.flatMap_append

theorem writes_map (i : Nat) (ps : List Path) : writes set (ps.map (Applied.mk i)) = writesOf set ps :=
  List.flatMap_map _ _ _

theorem append_eq_append_of_length_le {a b c d : List W} (h : a.length ≤ b.length) (h' : c.length ≤ d.length) :
    b ++ d = a ++ c ↔ b = a ∧ d = c := by
  constructor
  · intro heq
    have hlen := congrArg List.length heq
    rw [List.length_append, List.length_append] at hlen
    exact List.append_inj heq (by omega)
  · rintro ⟨rfl, rfl⟩
    rfl

/-! ## One device -/

section

variable {first second : Int} {paths : List Path} {found : Option Path × Option Path}

/-- The walk finds the same two paths under either name. -/
theorem findPaths_swap (hne : first ≠ second) :
    findPaths second first paths found.swap = (findPaths first second paths found).swap := by
  induction paths generalizing found with
  | nil => rfl
  | cons path rest ih =>
    rw [findPaths, findPaths]
    by_cases h₁ : path.id = first
    · have h₂ : ¬ path.id = second := fun h => hne (h₁.symm.trans h)
      rw [if_neg h₂, if_pos h₁, if_pos h₁]
      by_cases hstop : found.2.isSome = true
      · rw [if_pos (show found.swap.1.isSome = true from hstop), if_pos (Or.inl hstop)]
        rfl
      · rw [if_neg (show ¬ found.swap.1.isSome = true from hstop), if_neg (not_or.mpr ⟨hstop, hne⟩), ← ih]
        rfl
    · by_cases h₂ : path.id = second
      · rw [if_pos h₂, if_neg h₁, if_pos h₂]
        by_cases hstop : found.1.isSome = true
        · rw [if_pos (show found.swap.2.isSome = true ∨ second = first from Or.inl hstop), if_pos hstop]
          rfl
        · rw [if_neg (show ¬ (found.swap.2.isSome = true ∨ second = first) from
            not_or.mpr ⟨hstop, hne.symm⟩), if_neg hstop, ← ih]
          rfl
      · rw [if_neg h₂, if_neg h₁, if_neg h₁, if_neg h₂, ih]

/-- With one id to find there is no second path. -/
theorem findPaths_same (hnone : found.2 = none) : (findPaths first first paths found).2 = none := by
  induction paths generalizing found with
  | nil => exact hnone
  | cons path rest ih =>
    rw [findPaths]
    split
    · rw [if_pos (Or.inr rfl)]
      exact hnone
    · exact ih hnone

end

/-- The disable path and the "off" path of a device. -/
def disconnectPaths (disable : Int) (dev : Device) : Option Path × Option Path :=
  findPaths disable e_path_id_off dev.paths (none, none)

/-- Where a device has both paths they write the same in either order, unless other users
keep "off" from being applied.  A stream with "on" as its disable path counts the device
up again: as the last user it must write nothing. -/
def DisconnectsAlike (set : Ctl → Option (List W)) (disable : Int) (dev : Device) : Prop :=
  ∀ p q, disconnectPaths disable dev = (some p, some q) → dev.use_count ≤ 1 →
    if disable = e_path_id_on ∧ dev.use_count = 1 then pathWrites set p = [] ∧ pathWrites set q = []
    else pathWrites set q ++ pathWrites set p = pathWrites set p ++ pathWrites set q

theorem applyDevicePath_off {dev : Device} {q : Path} (hq : q.id = e_path_id_off) :
    applyDevicePath dev q = ({ dev with use_count := dev.use_count - 1 },
      if dev.use_count - 1 > 0 then [] else [q]) := by
  rw [applyDevicePath, if_pos hq]
  dsimp only
  split <;> rfl

theorem applyDevicePath_on {dev : Device} {p : Path} (hp : p.id = e_path_id_on) :
    applyDevicePath dev p = ({ dev with use_count := dev.use_count + 1 },
      if dev.use_count + 1 > 1 then [] else [p]) := by
  have hne : ¬ p.id = e_path_id_off := by
    rw [hp]
    decide
  rw [applyDevicePath, if_neg hne, if_pos hp]
  dsimp only
  split <;> rfl

/-- What releasing and re-routing apply to a device with both paths. -/
def releasedPaths (dev : Device) (p q : Path) : List Path :=
  (applyDevicePath dev q).2 ++ (applyDevicePath (applyDevicePath dev q).1 p).2

def reroutedPaths (dev : Device) (p q : Path) : List Path :=
  (applyDevicePath dev p).2 ++ (applyDevicePath (applyDevicePath dev p).1 q).2

/-- The disable path is not counted: both apply the same paths, in the other order. -/
theorem paths_of_custom {dev : Device} {p q : Path} (hq : q.id = e_path_id_off)
    (hp : p.id ≠ e_path_id_off) (hon : p.id ≠ e_path_id_on) :
    releasedPaths dev p q = (if dev.use_count ≤ 1 then [q] else []) ++ [p] ∧
      reroutedPaths dev p q = [p] ++ if dev.use_count ≤ 1 then [q] else [] := by
  have happly : ∀ d : Device, applyDevicePath d p = (d, [p]) := by
    intro d
    rw [applyDevicePath, if_neg hp, if_neg hon]
  unfold releasedPaths reroutedPaths
  rw [happly, happly, applyDevicePath_off hq]
  dsimp only
  by_cases hlast : dev.use_count ≤ 1
  · rw [if_pos hlast, if_neg (by omega)]
    exact ⟨rfl, rfl⟩
  · rw [if_neg hlast, if_pos (by omega)]
    exact ⟨rfl, rfl⟩

/-- The disable path is "on": releasing counts down first, re-routing counts up first. -/
theorem paths_of_on {dev : Device} {p q : Path} (hq : q.id = e_path_id_off) (hp : p.id = e_path_id_on) :
    releasedPaths dev p q = (if dev.use_count ≤ 1 then [q, p] else []) ∧
      reroutedPaths dev p q = if dev.use_count ≤ 0 then [p, q] else [] := by
  unfold releasedPaths reroutedPaths
  rw [applyDevicePath_off hq, applyDevicePath_on hp, applyDevicePath_off hq, applyDevicePath_on hp]
  dsimp only
  constructor
  · by_cases hlast : dev.use_count ≤ 1
    · rw [if_pos hlast, if_neg (by omega), if_neg (by omega)]
      rfl
    · rw [if_neg hlast, if_pos (by omega), if_pos (by omega)]
      rfl
  · by_cases hnone : dev.use_count ≤ 0
    · rw [if_pos hnone, if_neg (by omega), if_neg (by omega)]
      rfl
    · rw [if_neg hnone, if_pos (by omega), if_pos (by omega)]
      rfl

theorem both_paths_writes {dev : Device} {p q : Path} (hq : q.id = e_path_id_off) (hp : p.id ≠ e_path_id_off) :
    (writesOf set (reroutedPaths dev p q)).length ≤ (writesOf set (releasedPaths dev p q)).length ∧
      (writesOf set (releasedPaths dev p q) = writesOf set (reroutedPaths dev p q) ↔
        (dev.use_count ≤ 1 → if p.id = e_path_id_on ∧ dev.use_count = 1 then
            pathWrites set p = [] ∧ pathWrites set q = []
          else pathWrites set q ++ pathWrites set p = pathWrites set p ++ pathWrites set q)) := by
  by_cases hon : p.id = e_path_id_on
  · obtain ⟨hrel, hroute⟩ := @paths_of_on dev p q hq hon
    rw [hrel, hroute]
    rcases Int.lt_trichotomy dev.use_count 1 with hlt | hone | hgt
    · have hnot : ¬ (p.id = e_path_id_on ∧ dev.use_count = 1) := fun h => by omega
      rw [if_pos (show dev.use_count ≤ 0 by omega), if_pos (show dev.use_count ≤ 1 by omega), if_neg hnot]
      simp only [writesOf, List.flatMap_cons, List.flatMap_nil, List.append_nil]
      refine ⟨?_, ⟨fun h _ => h, fun h => h (by omega)⟩⟩
      rw [List.length_append, List.length_append, Nat.add_comm]
    · rw [if_neg (show ¬ dev.use_count ≤ 0 by omega), if_pos (show dev.use_count ≤ 1 by omega),
        if_pos ⟨hon, hone⟩]
      simp only [writesOf, List.flatMap_cons, List.flatMap_nil, List.append_nil, List.append_eq_nil_iff]
      exact ⟨Nat.zero_le _, ⟨fun h _ => h.symm, fun h => (h (by omega)).symm⟩⟩
    · rw [if_neg (show ¬ dev.use_count ≤ 0 by omega), if_neg (show ¬ dev.use_count ≤ 1 by omega)]
      exact ⟨Nat.le_refl _, ⟨fun _ hle => absurd hle (by omega), fun _ => rfl⟩⟩
  · obtain ⟨hrel, hroute⟩ := @paths_of_custom dev p q hq hp hon
    have hnot : ¬ (p.id = e_path_id_on ∧ dev.use_count = 1) := fun h => hon h.1
    rw [hrel, hroute, if_neg hnot]
    by_cases hlast : dev.use_count ≤ 1
    · rw [if_pos hlast]
      simp only [writesOf, List.cons_append, List.nil_append, List.flatMap_cons, List.flatMap_nil,
        List.append_nil]
      refine ⟨?_, ⟨fun h _ => h, fun h => h hlast⟩⟩
      rw [List.length_append, List.length_append, Nat.add_comm]
    · rw [if_neg hlast]
      exact ⟨Nat.le_refl _, ⟨fun _ hle => absurd hle hlast, fun _ => rfl⟩⟩

/-- Both orders at one device: re-routing writes no more than releasing, and they write
the same under `DisconnectsAlike`. -/
theorem applyPathsById_writes (disable : Int) (dev : Device) :
    (writesOf set (applyPathsById dev disable e_path_id_off).2).length ≤
        (writesOf set (applyPathsById dev e_path_id_off disable).2).length ∧
      (writesOf set (applyPathsById dev e_path_id_off disable).2 =
          writesOf set (applyPathsById dev disable e_path_id_off).2 ↔
        DisconnectsAlike set disable dev) := by
  obtain ⟨hid₁, hid₂⟩ := findPaths_ids dev disable e_path_id_off
  by_cases hoff : disable = e_path_id_off
  · -- one path to find, so both calls are the same
    subst hoff
    refine ⟨Nat.le_refl _, ⟨fun _ p q hfound => ?_, fun _ => rfl⟩⟩
    have hnone := @findPaths_same e_path_id_off dev.paths (none, none) rfl
    have hsome : (findPaths e_path_id_off e_path_id_off dev.paths (none, none)).2 = some q :=
      congrArg Prod.snd hfound
    rw [hnone] at hsome
    cases hsome
  · have hswap := @findPaths_swap disable e_path_id_off dev.paths (none, none) hoff
    change findPaths e_path_id_off disable dev.paths (none, none) = _ at hswap
    unfold applyPathsById DisconnectsAlike disconnectPaths
    dsimp only
    rw [hswap]
    generalize hfound : findPaths disable e_path_id_off dev.paths (none, none) = found at hid₁ hid₂ ⊢
    obtain ⟨p?, q?⟩ := found
    cases p? with
    | none =>
      refine ⟨Nat.le_of_eq (by simp [applyFound]), fun _ p q h => ?_, fun _ => by simp [applyFound]⟩
      cases h
    | some p =>
      cases q? with
      | none =>
        refine ⟨Nat.le_of_eq (by simp [applyFound]), fun _ p q h => ?_, fun _ => by simp [applyFound]⟩
        cases h
      | some q =>
        have hp : p.id = disable := hid₁ p rfl
        have hq : q.id = e_path_id_off := hid₂ q rfl
        obtain ⟨hlen, hiff⟩ := @both_paths_writes W set dev p q hq (by rw [hp]; exact hoff)
        rw [hp] at hiff
        refine ⟨hlen, hiff.trans ⟨fun h p' q' heq => ?_, fun h => h p q rfl⟩⟩
        obtain ⟨rfl, rfl⟩ : p = p' ∧ q = q' := by simpa using heq
        exact h

/-! ## The loop over the devices -/

section

variable {flag : Mask} {disable : Int}

theorem visited_writes (m : Mask) (before : List Mask) (dev : Device) :
    (writesOf set (visited disable e_path_id_off flag m before dev).2).length ≤
        (writesOf set (visited e_path_id_off disable flag m before dev).2).length ∧
      (writesOf set (visited e_path_id_off disable flag m before dev).2 =
          writesOf set (visited disable e_path_id_off flag m before dev).2 ↔
        (Reaches flag m before dev.type → DisconnectsAlike set disable dev)) := by
  unfold visited
  split
  case isTrue hreach =>
    obtain ⟨hlen, hiff⟩ := @applyPathsById_writes W set disable dev
    exact ⟨hlen, hiff.trans ⟨fun h _ => h, fun h => h hreach⟩⟩
  case isFalse hnot => exact ⟨Nat.le_refl _, ⟨fun _ h => absurd h hnot, fun _ => rfl⟩⟩

/-- **Loop lemma.** -/
theorem loop_writes (m : Mask) (i : Nat) (devs : List Device) :
    (writes set (applyPathsLoop disable e_path_id_off flag m i devs).2).length ≤
        (writes set (applyPathsLoop e_path_id_off disable flag m i devs).2).length ∧
      (writes set (applyPathsLoop e_path_id_off disable flag m i devs).2 =
          writes set (applyPathsLoop disable e_path_id_off flag m i devs).2 ↔
        ∀ k dev, devs[k]? = some dev → Reaches flag m ((types devs).take k) dev.type →
          DisconnectsAlike set disable dev) := by
  induction devs generalizing m i with
  | nil => exact ⟨Nat.le_refl _, ⟨fun _ k dev hk => (by cases hk), fun _ => rfl⟩⟩
  | cons dev rest ih =>
    obtain ⟨hlen₁, hiff₁⟩ := @visited_writes W set flag disable m [] dev
    obtain ⟨hlen₂, hiff₂⟩ := ih (left flag m dev.type) (i + 1)
    rw [applyPathsLoop_cons, applyPathsLoop_cons]
    dsimp only
    rw [writes_append, writes_append, writes_map, writes_map]
    refine ⟨?_, (append_eq_append_of_length_le hlen₁ hlen₂).trans ?_⟩
    · rw [List.length_append, List.length_append]
      omega
    · rw [hiff₁, hiff₂]
      simp only [reaches_left]
      constructor
      · rintro ⟨hhead, htail⟩ k d hk
        cases k with
        | zero =>
          obtain rfl : dev = d := Option.some.inj hk
          exact hhead
        | succ k => exact htail k d hk
      · intro h
        exact ⟨h 0 dev rfl, fun k d hk => h (k + 1) d hk⟩

end

/-- The devices of a stream are disconnected alike. -/
def ReleasesAlike (set : Ctl → Option (List W)) (cm : ConfigMgr) (s : Stream) : Prop :=
  ∀ k dev, cm.devices[k]? = some dev → ReachedBy s.current_devices ((types cm.devices).take k) dev.type →
    DisconnectsAlike set s.disable_path dev

/-! ## release_stream -/

theorem applyGlobalLoop_congr {first second : Int} {devs devs' : List Device} (i : Nat)
    (htypes : types devs' = types devs) (hglobal : globalDevice devs' = globalDevice devs) :
    (applyGlobalLoop first second i devs').2 = (applyGlobalLoop first second i devs).2 := by
  induction devs generalizing devs' i with
  | nil =>
    rw [List.map_eq_nil_iff.mp htypes]
  | cons dev rest ih =>
    obtain ⟨dev', rest', rfl, htype, hrest⟩ := List.map_eq_cons_iff.mp htypes
    rw [applyGlobalLoop, applyGlobalLoop, htype]
    split
    case isTrue hzero =>
      have hsame : dev' = dev := by
        unfold globalDevice at hglobal
        rw [List.find?_cons_of_pos (by simp [htype, hzero]), List.find?_cons_of_pos (by simp [hzero])]
          at hglobal
        exact Option.some.inj hglobal
      rw [hsame]
    case isFalse hzero =>
      rw [globalDevice_cons_of_ne hzero, globalDevice_cons_of_ne (by rw [htype]; exact hzero)] at hglobal
      exact ih (i + 1) hrest hglobal

/-- Re-routing to no device is one loop over the stream's devices. -/
theorem applyRoute_nothing (all : AllDevices) (cm : ConfigMgr) (i : Nat) (s : Stream) :
    (applyRoute all cm i s 0).1.devices =
        (applyPathsToDevices cm.devices s.current_devices s.disable_path e_path_id_off).1 ∧
      (applyRoute all cm i s 0).2 =
        (applyPathsToDevices cm.devices s.current_devices s.disable_path e_path_id_off).2 := by
  have hnew : newDevices all s 0 = some 0 := if_pos rfl
  have hdis : disabling s 0 = s.current_devices := BitVec.allOnes_and
  have hen : enabling s 0 = 0 := BitVec.zero_and
  have hnone : ∀ devs, applyPathsToDevices devs 0 e_path_id_on s.enable_path = (devs, []) := by
    intro devs
    exact applyPathsLoop_zero 0 devs
  unfold applyRoute
  rw [hnew]
  dsimp only
  rw [hdis, hen, hnone]
  exact ⟨rfl, List.append_nil _⟩

theorem releaseStream_last (cm : ConfigMgr) (i : Nat) {s : Stream} (hlast : s.ref_count = 1) :
    (releaseStream cm i s).2 =
      (applyPathsToDevices cm.devices s.current_devices e_path_id_off s.disable_path).2 ++
        (applyPathsToGlobal (applyPathsToDevices cm.devices s.current_devices e_path_id_off
          s.disable_path).1 s.disable_path e_path_id_off).2 := by
  unfold releaseStream
  dsimp only
  rw [if_pos (by omega)]

/-- The last release writes what re-routing to nothing writes and then the global paths. -/
def LikeReroute (set : Ctl → Option (List W)) (all : AllDevices) (cm : ConfigMgr) (i : Nat) (s : Stream)
    (applied : List Applied) : Prop :=
  writes set applied = writes set (applyRoute all cm i s 0).2 ++
    writes set (applyPathsToGlobal (applyRoute all cm i s 0).1.devices s.disable_path e_path_id_off).2

instance [DecidableEq W] (set : Ctl → Option (List W)) (all : AllDevices) (cm : ConfigMgr) (i : Nat)
    (s : Stream) (applied : List Applied) : Decidable (LikeReroute set all cm i s applied) :=
  inferInstanceAs (Decidable (_ = _))

theorem releaseStream_writes_iff (all : AllDevices) (cm : ConfigMgr) (i : Nat) {s : Stream}
    (hlast : s.ref_count = 1) :
    LikeReroute set all cm i s (releaseStream cm i s).2 ↔ ReleasesAlike set cm s := by
  obtain ⟨hdevs, happlied⟩ := applyRoute_nothing all cm i s
  have hglobal : (applyPathsToGlobal (applyPathsToDevices cm.devices s.current_devices e_path_id_off
        s.disable_path).1 s.disable_path e_path_id_off).2 =
      (applyPathsToGlobal (applyPathsToDevices cm.devices s.current_devices s.disable_path
        e_path_id_off).1 s.disable_path e_path_id_off).2 := by
    refine applyGlobalLoop_congr 0 ?_ ?_
    · rw [types_of_static (applyPathsToDevices_static _ _ _ _),
        types_of_static (applyPathsToDevices_static _ _ _ _)]
    · exact applyPathsToDevices_global _ _ |>.1.trans (applyPathsToDevices_global _ _).1.symm
  unfold LikeReroute
  rw [hdevs, happlied, releaseStream_last cm i hlast, writes_append, hglobal, List.append_cancel_right_eq]
  exact (loop_writes _ 0 cm.devices).2

/-! ## Runs -/

/-- The log holds what the calls did. -/
theorem event_of_run {all : AllDevices} {config : ConfigMgr → Prop} {ok : ConfigMgr → Call → Prop} {s : Session}
    (h : Run all config ok s) : ∀ e ∈ s.log, e.applied = (e.before.step all e.call).2 := by
  refine Reachable.invariant (P := fun s => ∀ e ∈ s.log, e.applied = (e.before.step all e.call).2) ?_ ?_ h
  · rintro s ⟨-, -, hlog⟩ e he
    rw [hlog] at he
    exact absurd he List.not_mem_nil
  · intro s call s' ih _ hs e he
    obtain ⟨-, hs⟩ := Option.ite_none_right_eq_some.mp hs
    obtain rfl := Option.some.inj hs
    rcases List.mem_append.mp he with he | he
    · exact ih e he
    · obtain rfl := List.mem_singleton.mp he
      rfl

/-- **Closing a stream.** -/
theorem release_writes_iff (set : Ctl → Option (List W)) (all : AllDevices) (s : Session)
    (h : Run all (fun _ => True) (fun _ _ => True) s) (e : Event) (he : e ∈ s.log) (i : Nat) (st : Stream)
    (hcall : e.call = .releaseStream i) (hst : e.before.streams[i]? = some st) (hlast : st.ref_count = 1) :
    LikeReroute set all e.before i st e.applied ↔ ReleasesAlike set e.before st := by
  rw [event_of_run h e he, hcall, ConfigMgr.step, hst]
  exact releaseStream_writes_iff all e.before i hlast

/-- A speaker amplifier that is switched off after the path from the stream is muted. -/
def amplifierConfig : ConfigMgr where
  devices :=
    [⟨AUDIO_DEVICE_OUT_SPEAKER, 0,
      [⟨e_path_id_on, [⟨"Amp Switch", 0, "1"⟩]⟩, ⟨e_path_id_off, [⟨"Amp Switch", 0, "0"⟩]⟩,
       ⟨2, [⟨"DAC Mute", 0, "0"⟩]⟩, ⟨3, [⟨"DAC Mute", 0, "1"⟩]⟩]⟩]
  streams := [⟨.out_pcm, none, 0, 1, 2, 3, 0⟩, ⟨.out_pcm, none, 0, 1, 2, 3, 0⟩]

/-- Two streams on the speaker, closed one after the other. -/
def closingCalls : List Call :=
  [.getStream AUDIO_DEVICE_OUT_SPEAKER true, .applyRoute 1 AUDIO_DEVICE_OUT_SPEAKER,
    .getStream AUDIO_DEVICE_OUT_SPEAKER true, .applyRoute 0 AUDIO_DEVICE_OUT_SPEAKER,
    .releaseStream 1, .releaseStream 0]

def closingEnd : Option Session :=
  closingCalls.foldlM (fun s call => if True then s.step platformDevices call else none)
    ⟨amplifierConfig, []⟩

theorem closingEnd_run {s : Session} (h : closingEnd = some s) :
    Run platformDevices (fun _ => True) (fun _ _ => True) s :=
  reachable_foldlM closingCalls (.start ⟨⟨by decide, by decide, by decide, by decide⟩, trivial, rfl⟩) h

/-- The first one to be closed leaves the speaker in use. -/
theorem release_writes_iff_shared :
    ∃ s e st, closingEnd = some s ∧ e ∈ s.log ∧ e.call = .releaseStream 1 ∧ e.before.streams[1]? = some st ∧
      st.ref_count = 1 ∧ LikeReroute (fun ctl => some [ctl]) platformDevices e.before 1 st e.applied := by
  have hevent : closingEnd.map (fun s => s.log[4]?.map fun e =>
      (e.call, e.before.streams[1]?.map Stream.ref_count, e.before.devices.map Device.use_count)) =
      some (some (.releaseStream 1, some 1, [2])) := by decide
  obtain ⟨s, hs, hevent⟩ := Option.map_eq_some_iff.mp hevent
  obtain ⟨e, he, hevent⟩ := Option.map_eq_some_iff.mp hevent
  obtain ⟨hcall, hst, huse⟩ : e.call = .releaseStream 1 ∧
      e.before.streams[1]?.map Stream.ref_count = some 1 ∧ e.before.devices.map Device.use_count = [2] := by
    simpa using hevent
  obtain ⟨st, hst, href⟩ := Option.map_eq_some_iff.mp hst
  refine ⟨s, e, st, hs, List.mem_of_getElem? he, hcall, hst, href,
    (release_writes_iff _ platformDevices s (closingEnd_run hs) e (List.mem_of_getElem? he) 1 st hcall hst
      href).mpr ?_⟩
  intro k dev hk _ p q _ hlast
  have hmem : dev.use_count ∈ e.before.devices.map Device.use_count :=
    List.mem_map_of_mem (List.mem_of_getElem? hk)
  rw [huse, List.mem_singleton] at hmem
  omega

/-- The last one switches the amplifier off before it mutes the path. -/
theorem amplifier_off_first :
    ¬ ∀ (set : Ctl → Option (List Ctl)) (all : AllDevices) (s : Session),
      Run all (fun _ => True) (fun _ _ => True) s → ∀ e ∈ s.log, ∀ (i : Nat) (st : Stream),
        e.call = .releaseStream i → e.before.streams[i]? = some st → st.ref_count = 1 →
          LikeReroute set all e.before i st e.applied := by
  intro h
  have hevent : closingEnd.map (fun s => s.log[5]?.map fun e =>
      (e.call, e.before.streams[0]?.map fun st => (st.ref_count,
        decide (LikeReroute (fun ctl => some [ctl]) platformDevices e.before 0 st e.applied)))) =
      some (some (.releaseStream 0, some (1, false))) := by decide
  obtain ⟨s, hs, hevent⟩ := Option.map_eq_some_iff.mp hevent
  obtain ⟨e, he, hevent⟩ := Option.map_eq_some_iff.mp hevent
  obtain ⟨hcall, hst⟩ := Prod.mk.inj hevent
  obtain ⟨st, hst, hbad⟩ := Option.map_eq_some_iff.mp hst
  obtain ⟨href, hbad⟩ := Prod.mk.inj hbad
  exact of_decide_eq_false hbad (h _ platformDevices s (closingEnd_run hs) e (List.mem_of_getElem? he) 0 st
    hcall hst href)

end MochaHal.Audio
