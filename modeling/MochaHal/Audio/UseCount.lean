import MochaHal.Lib.Entries
import MochaHal.Audio.Directions

/-! Use counts of devices.  `use_count` is moved only when an on or off path is found,
so it counts the streams of a device as long as every call connects devices that have
an "on" path, disconnects devices that have an "off" path, moves all bits of a device
at once, keeps to its own direction and finds no counted global path (`Counted`).  In every such run `use_count` is
the number of open streams routed to the device, and the on and off paths are applied
exactly when that number leaves or reaches 0 (`use_count_exact`).  The configuration of
the device has no "off" path (`speaker_stays_in_use`). -/

namespace MochaHal.Audio
open MochaHal.Bits MochaHal.Reach MochaHal.Entries

/-! ## Users of a device -/

/-- The mask without the direction. -/
def low (m : Mask) : Mask := m &&& ~~~AUDIO_DEVICE_BIT_IN

/-- The stream is open and connected to the devices of type `t`. -/
def Stream.routedTo (s : Stream) (t : Mask) : Bool :=
  0 < s.ref_count && isInputType t == s.isInput && t &&& low s.current_devices != 0

/-- How many of the streams are. -/
def users (streams : List Stream) (t : Mask) : Nat := streams.countP fun s => s.routedTo t

def ConfigMgr.users (cm : ConfigMgr) (t : Mask) : Nat := Audio.users cm.streams t

/-! ## Calls that count -/

/-- No device of the other direction is reached. -/
def Reserved (input : Bool) (m : Mask) (devs : List Device) : Prop :=
  ∀ x ∈ devs.zipIdx, isInputType x.1.type ≠ input → ¬ ReachedBy m ((types devs).take x.2) x.1.type

instance (input : Bool) (m : Mask) (devs : List Device) : Decidable (Reserved input m devs) :=
  inferInstanceAs (Decidable (∀ x ∈ devs.zipIdx, _ → _))

/-- A device on the stream's side that changes is connected or disconnected as a
whole, and has the path for it. -/
def Moves (s : Stream) (devices : Mask) (dev : Device) : Prop :=
  isInputType dev.type = s.isInput → dev.type &&& low (enabling s devices ||| disabling s devices) ≠ 0 →
    (dev.type &&& low s.current_devices = 0 ∧ dev.HasPath e_path_id_on) ∨
      (dev.type &&& low devices = 0 ∧ dev.HasPath e_path_id_off)

instance (s : Stream) (devices : Mask) (dev : Device) : Decidable (Moves s devices dev) :=
  inferInstanceAs (Decidable (_ → _ → (_ ∧ _) ∨ (_ ∧ _)))

def Counted (all : AllDevices) (cm : ConfigMgr) : Call → Prop
  | .applyRoute i devices => ∀ s ∈ cm.streams[i]?, (newDevices all s devices).isSome = true →
      0 < s.ref_count ∧ Reserved s.isInput (disabling s devices) cm.devices ∧
        Reserved s.isInput (enabling s devices) cm.devices ∧ ∀ dev ∈ cm.devices, Moves s devices dev
  | .releaseStream i => ∀ s ∈ cm.streams[i]?, s.ref_count = 1 →
      Reserved s.isInput s.current_devices cm.devices ∧
        (∀ dev ∈ cm.devices, isInputType dev.type = s.isInput →
          dev.type &&& low s.current_devices ≠ 0 → dev.HasPath e_path_id_off) ∧
        GlobalLacks cm.devices e_path_id_off
  | call => WhenOpened cm call fun _ => GlobalLacks cm.devices e_path_id_on

/-- No stream uses "on" or "off" as its enable or disable path. -/
def PlainPaths (cm : ConfigMgr) : Prop :=
  ∀ s ∈ cm.streams, s.enable_path ∉ [e_path_id_off, e_path_id_on] ∧
    s.disable_path ∉ [e_path_id_off, e_path_id_on]

instance (cm : ConfigMgr) : Decidable (PlainPaths cm) :=
  inferInstanceAs (Decidable (∀ s ∈ cm.streams, _ ∧ _))

/-! ## Reached devices of one direction -/

/-- A seen bit has a first device that has it. -/
theorem seen_first {flag : Mask} {ts : List Mask} {b : Nat} (h : (seen flag ts).getLsbD b = true) :
    ∃ j u, ts[j]? = some u ∧ u &&& flag = flag ∧ u.getLsbD b = true ∧
      (seen flag (ts.take j)).getLsbD b = false := by
  induction ts with
  | nil =>
    rw [seen, zero_getLsbD] at h
    cases h
  | cons t ts ih =>
    by_cases ht : t &&& flag = flag ∧ t.getLsbD b = true
    · exact ⟨0, t, rfl, ht.1, ht.2, zero_getLsbD b⟩
    · have hskip : ∀ us, (seen flag (t :: us)).getLsbD b = (seen flag us).getLsbD b := by
        intro us
        rw [seen_cons]
        split
        case isTrue hflag =>
          have hbit : t.getLsbD b = false := by
            rw [← Bool.not_eq_true]
            exact fun hb => ht ⟨hflag, hb⟩
          rw [BitVec.getLsbD_or, hbit, Bool.false_or]
        case isFalse => rfl
      rw [hskip] at h
      obtain ⟨j, u, hj, hflag, hbit, hfirst⟩ := ih h
      exact ⟨j + 1, u, hj, hflag, hbit, by rw [List.take_succ_cons, hskip]; exact hfirst⟩

/-- Types of one direction share no bit. -/
theorem table_disjoint {a b : Mask} (ha : a ∈ deviceTable.map Prod.snd)
    (hb : b ∈ deviceTable.map Prod.snd) (hne : a ≠ b) (hside : isInputType a = isInputType b) :
    a &&& low b = 0 := by
  have hall : ((deviceTable.map Prod.snd).all fun a => (deviceTable.map Prod.snd).all fun b =>
      a == b || isInputType a != isInputType b || a &&& low b == 0) = true := by
    decide +kernel
  have hab := List.all_eq_true.mp (List.all_eq_true.mp hall a ha) b hb
  simpa [hne, hside] using hab

theorem low_getLsbD (m : Mask) (b : Nat) :
    (low m).getLsbD b = (m.getLsbD b && (~~~AUDIO_DEVICE_BIT_IN).getLsbD b) := by
  rw [low, BitVec.getLsbD_and]

theorem bitIn_getLsbD {b : Nat} (h : AUDIO_DEVICE_BIT_IN.getLsbD b = true) : b = 31 := by
  rw [show AUDIO_DEVICE_BIT_IN = BitVec.twoPow 32 31 by decide, BitVec.getLsbD_twoPow] at h
  simp at h
  exact h.symm

/-- An input type has the direction bit, whatever the mask. -/
theorem and_direction {t : Mask} (ht : isInputType t = true) (m : Mask) :
    t &&& (m &&& AUDIO_DEVICE_BIT_IN) = m &&& AUDIO_DEVICE_BIT_IN := by
  obtain ⟨i, hti, hi⟩ := and_ne_zero_iff.mp (of_decide_eq_true ht)
  refine BitVec.eq_of_getLsbD_eq fun b _ => ?_
  rw [BitVec.getLsbD_and]
  cases hb : (m &&& AUDIO_DEVICE_BIT_IN).getLsbD b with
  | false => exact Bool.and_false _
  | true =>
    rw [BitVec.getLsbD_and, Bool.and_eq_true] at hb
    rw [bitIn_getLsbD hb.2, ← bitIn_getLsbD hi, hti]
    rfl

/-- A mask of an output stream does not have the direction bit. -/
def Sided (input : Bool) (m : Mask) : Prop := input = false → m &&& AUDIO_DEVICE_BIT_IN = 0

theorem Sided.mono {input : Bool} {m m' : Mask} (h : Sided input m)
    (hsub : Incl m' m) : Sided input m' := by
  intro hin
  by_contra hne
  rw [BitVec.and_comm] at hne
  exact hsub.meets hne (by rw [BitVec.and_comm]; exact h hin)

/-- The types of a parsed table. -/
structure Table (ts : List Mask) : Prop where
  in_table : ∀ t ∈ ts, t ∈ deviceTable.map Prod.snd
  distinct : ts.Pairwise fun a b => a ≠ 0 → a ≠ b

theorem Table.ne {ts : List Mask} (h : Table ts) {j k : Nat} {u t : Mask} (hj : ts[j]? = some u)
    (hk : ts[k]? = some t) (hjk : j < k) (hu : u ≠ 0) : u ≠ t := by
  obtain ⟨hjl, rfl⟩ := List.getElem?_eq_some_iff.mp hj
  obtain ⟨hkl, rfl⟩ := List.getElem?_eq_some_iff.mp hk
  exact List.pairwise_iff_getElem.mp h.distinct j k hjl hkl hjk hu

section

variable {input : Bool} {m : Mask} {devs : List Device}

theorem reserved_iff : Reserved input m devs ↔ ∀ k t, (types devs)[k]? = some t →
    isInputType t ≠ input → ¬ ReachedBy m ((types devs).take k) t := by
  constructor
  · intro h k t hk
    rw [types, List.getElem?_map] at hk
    obtain ⟨dev, hdev, rfl⟩ := Option.map_eq_some_iff.mp hk
    exact h (dev, k) (List.mk_mem_zipIdx_iff_getElem?.mpr hdev)
  · intro h x hx
    refine h x.2 x.1.type ?_
    rw [types, List.getElem?_map, List.mk_mem_zipIdx_iff_getElem?.mp hx, Option.map_some]

/-- Where the other direction is not reached, the devices of the stream's own direction
do not take each other's bits. -/
theorem reachedBy_iff (htable : Table (types devs)) (hside : Sided input m) (hres : Reserved input m devs)
    {k : Nat} {t : Mask} (hk : (types devs)[k]? = some t) (ht : isInputType t = input) :
    ReachedBy m ((types devs).take k) t ↔ t &&& low m ≠ 0 := by
  refine ⟨fun h => h.meets, fun h => ⟨?_, ?_⟩⟩
  · cases input with
    | true => exact and_direction ht m
    | false =>
      rw [hside rfl]
      exact BitVec.and_zero
  · obtain ⟨b, htb, hmb⟩ := and_ne_zero_iff.mp h
    refine and_ne_zero_iff.mpr ⟨b, htb, ?_⟩
    rw [BitVec.getLsbD_and, Bool.and_eq_true]
    refine ⟨hmb, ?_⟩
    rw [BitVec.getLsbD_not, Bool.and_eq_true]
    refine ⟨decide_eq_true (BitVec.lt_of_getLsbD htb), ?_⟩
    by_contra hseen
    -- the first earlier device with the bit is reached, so it has the same direction as `t`
    obtain ⟨j, u, hj, hflag, hub, hfirst⟩ := seen_first (by simpa using hseen)
    rw [List.getElem?_take] at hj
    split at hj
    case isFalse => cases hj
    case isTrue hjk =>
      rw [List.take_take, Nat.min_eq_left (Nat.le_of_lt hjk)] at hfirst
      have hreach : ReachedBy m ((types devs).take j) u := by
        refine ⟨hflag, and_ne_zero_iff.mpr ⟨b, hub, ?_⟩⟩
        rw [BitVec.getLsbD_and, BitVec.getLsbD_not, hfirst, decide_eq_true (BitVec.lt_of_getLsbD hub),
          show (m &&& ~~~AUDIO_DEVICE_BIT_IN).getLsbD b = true from hmb]
        rfl
      have hu : isInputType u = input := by
        by_contra hne
        exact reserved_iff.mp hres j u hj hne hreach
      have hne : u ≠ t := htable.ne hj hk hjk (ne_zero_iff.mpr ⟨b, hub⟩)
      have hdisj := table_disjoint (htable.in_table u (List.mem_of_getElem? hj))
        (htable.in_table t (List.mem_of_getElem? hk)) hne (hu.trans ht.symm)
      refine and_ne_zero_iff.mpr ⟨b, hub, ?_⟩ hdisj
      rw [low_getLsbD, htb, Bool.true_and]
      rw [low_getLsbD, Bool.and_eq_true] at hmb
      exact hmb.2

end

/-! ## What happens to one device -/

/-- How often the path `id` is among `ps`. -/
def times (id : Int) (ps : List Path) : Nat := ps.countP fun p => p.id = id

/-- A device that keeps, gains or loses a user, with what is applied to it. -/
inductive Outcome (dev dev' : Device) (ps : List Path) : (n n' : Nat) → Prop
  | same {n : Nat} (hcount : dev'.use_count = dev.use_count) (hon : times e_path_id_on ps = 0)
      (hoff : times e_path_id_off ps = 0) : Outcome dev dev' ps n n
  | gains {n : Nat} (hcount : dev'.use_count = dev.use_count + 1)
      (hon : times e_path_id_on ps = if dev.use_count + 1 > 1 then 0 else 1)
      (hoff : times e_path_id_off ps = 0) : Outcome dev dev' ps n (n + 1)
  | loses {n : Nat} (hcount : dev'.use_count = dev.use_count - 1)
      (hon : times e_path_id_on ps = 0)
      (hoff : times e_path_id_off ps = if dev.use_count - 1 > 0 then 0 else 1) : Outcome dev dev' ps (n + 1) n

/-- A count that was right stays right, and the paths are applied at the ends. -/
theorem Outcome.exact {dev dev' : Device} {ps : List Path} {n n' : Nat} (h : Outcome dev dev' ps n n')
    (hn : dev.use_count = n) : dev'.use_count = n' ∧
      times e_path_id_on ps = (if n = 0 ∧ n' = 1 then 1 else 0) ∧
      times e_path_id_off ps = (if n = 1 ∧ n' = 0 then 1 else 0) := by
  cases h with
  | same hcount hon hoff => exact ⟨by omega, by rw [hon, if_neg (by omega)], by rw [hoff, if_neg (by omega)]⟩
  | gains hcount hon hoff =>
    refine ⟨by omega, ?_, by rw [hoff, if_neg (by omega)]⟩
    rw [hon]
    split_ifs <;> omega
  | loses hcount hon hoff =>
    refine ⟨by omega, by rw [hon, if_neg (by omega)], ?_⟩
    rw [hoff]
    split_ifs <;> omega

/-- A path other than on and off is applied and nothing is counted. -/
theorem applyFound_custom {dev : Device} {found : Option Path}
    (h : ∀ p ∈ found, p.id ∉ [e_path_id_off, e_path_id_on]) :
    (applyFound dev found).1 = dev ∧ times e_path_id_on (applyFound dev found).2 = 0 ∧
      times e_path_id_off (applyFound dev found).2 = 0 := by
  cases found with
  | none => exact ⟨rfl, rfl, rfl⟩
  | some p =>
    have hp := h p rfl
    rw [List.mem_cons, List.mem_singleton, not_or] at hp
    have happly : applyFound dev (some p) = (dev, [p]) := by
      rw [applyFound, applyDevicePath, if_neg hp.1, if_neg hp.2]
    rw [happly]
    refine ⟨rfl, ?_, ?_⟩
    · simp [times, hp.2]
    · simp [times, hp.1]

theorem applyFound_on {dev : Device} {p : Path} (hp : p.id = e_path_id_on) :
    (applyFound dev (some p)).1.use_count = dev.use_count + 1 ∧
      times e_path_id_on (applyFound dev (some p)).2 = (if dev.use_count + 1 > 1 then 0 else 1) ∧
      times e_path_id_off (applyFound dev (some p)).2 = 0 := by
  have hne : ¬ p.id = e_path_id_off := by
    rw [hp]
    decide
  rw [applyFound, applyDevicePath, if_neg hne, if_pos hp]
  dsimp only
  split
  · exact ⟨rfl, rfl, rfl⟩
  · exact ⟨rfl, by simp [times, hp], by simp [times, hne]⟩

theorem applyFound_off {dev : Device} {p : Path} (hp : p.id = e_path_id_off) :
    (applyFound dev (some p)).1.use_count = dev.use_count - 1 ∧
      times e_path_id_on (applyFound dev (some p)).2 = 0 ∧
      times e_path_id_off (applyFound dev (some p)).2 = (if dev.use_count - 1 > 0 then 0 else 1) := by
  have hne : ¬ p.id = e_path_id_on := by
    rw [hp]
    decide
  rw [applyFound, applyDevicePath, if_pos hp]
  dsimp only
  split
  · exact ⟨rfl, rfl, rfl⟩
  · exact ⟨rfl, by simp [times, hne], by simp [times, hp]⟩

/-- The two paths that are found, by their ids. -/
theorem findPaths_ids (dev : Device) (first second : Int) :
    (∀ p ∈ (findPaths first second dev.paths (none, none)).1, p.id = first) ∧
      ∀ p ∈ (findPaths first second dev.paths (none, none)).2, p.id = second :=
  @findPaths_all first second dev.paths (none, none) (fun p => p.id = first) (fun p => p.id = second)
    (fun _ _ h => h) (fun _ _ h => h) (fun _ h => (by cases h)) (fun _ h => (by cases h))

theorem times_append (id : Int) (ps qs : List Path) : times id (ps ++ qs) = times id ps + times id qs :=
  List.countP_append

theorem Outcome.congr {dev dev' dev'' : Device} {ps ps' : List Path} {n n' : Nat}
    (h : Outcome dev dev' ps n n') (hcount : dev''.use_count = dev'.use_count)
    (hon : times e_path_id_on ps' = times e_path_id_on ps)
    (hoff : times e_path_id_off ps' = times e_path_id_off ps) : Outcome dev dev'' ps' n n' := by
  cases h with
  | same h₁ h₂ h₃ => exact .same (hcount.trans h₁) (hon.trans h₂) (hoff.trans h₃)
  | gains h₁ h₂ h₃ => exact .gains (hcount.trans h₁) (hon.trans h₂) (hoff.trans h₃)
  | loses h₁ h₂ h₃ => exact .loses (hcount.trans h₁) (hon.trans h₂) (hoff.trans h₃)

section

variable {dev : Device} {first second : Int} {n n' : Nat}

/-- The first of two paths is the counted one. -/
theorem applyPathsById_first (hfirst : dev.HasPath first)
    (hsecond : second ∉ [e_path_id_off, e_path_id_on])
    (h : ∀ p : Path, p.id = first →
      Outcome dev (applyFound dev (some p)).1 (applyFound dev (some p)).2 n n') :
    Outcome dev (applyPathsById dev first second).1 (applyPathsById dev first second).2 n n' := by
  obtain ⟨hid₁, hid₂⟩ := findPaths_ids dev first second
  obtain ⟨p, hp⟩ := Option.isSome_iff_exists.mp (@findPaths_first first second dev.paths (none, none)
    (Or.inl hfirst))
  obtain ⟨hdev, hon, hoff⟩ := @applyFound_custom (applyFound dev (some p)).1
    (findPaths first second dev.paths (none, none)).2 fun q hq => hid₂ q hq ▸ hsecond
  unfold applyPathsById
  dsimp only
  rw [hp]
  refine (h p (hid₁ p hp)).congr (by rw [hdev]) ?_ ?_
  · rw [times_append, hon, Nat.add_zero]
  · rw [times_append, hoff, Nat.add_zero]

/-- The second of two paths is the counted one. -/
theorem applyPathsById_second (hfirst : first ∉ [e_path_id_off, e_path_id_on])
    (hsecond : dev.HasPath second) (hne : first ≠ second)
    (h : ∀ p : Path, p.id = second →
      Outcome dev (applyFound dev (some p)).1 (applyFound dev (some p)).2 n n') :
    Outcome dev (applyPathsById dev first second).1 (applyPathsById dev first second).2 n n' := by
  obtain ⟨hid₁, hid₂⟩ := findPaths_ids dev first second
  obtain ⟨p, hp⟩ := Option.isSome_iff_exists.mp (@findPaths_second first second dev.paths (none, none)
    hne (Or.inl hsecond))
  obtain ⟨hdev, hon, hoff⟩ := @applyFound_custom dev
    (findPaths first second dev.paths (none, none)).1 fun q hq => hid₁ q hq ▸ hfirst
  unfold applyPathsById
  dsimp only
  rw [hp, hdev]
  refine (h p (hid₂ p hp)).congr rfl ?_ ?_
  · rw [times_append, hon, Nat.zero_add]
  · rw [times_append, hoff, Nat.zero_add]

theorem on_outcome {p : Path} (hp : p.id = e_path_id_on) :
    Outcome dev (applyFound dev (some p)).1 (applyFound dev (some p)).2 n (n + 1) := by
  obtain ⟨hcount, hon, hoff⟩ := @applyFound_on dev p hp
  exact .gains hcount hon hoff

theorem off_outcome {p : Path} (hp : p.id = e_path_id_off) :
    Outcome dev (applyFound dev (some p)).1 (applyFound dev (some p)).2 (n + 1) n := by
  obtain ⟨hcount, hon, hoff⟩ := @applyFound_off dev p hp
  exact .loses hcount hon hoff

end

/-! ## Users and calls -/

theorem users_set {streams : List Stream} {i : Nat} {s : Stream} (hs : streams[i]? = some s)
    (s' : Stream) (t : Mask) :
    users (streams.set i s') t + (s.routedTo t).toNat = users streams t + (s'.routedTo t).toNat :=
  countP_set_add hs s'

/-- A stream as every run leaves it: its own paths are not counted, it is on one side,
and it has no devices once it is closed. -/
structure Stream.Ok (s : Stream) : Prop where
  enable_plain : s.enable_path ∉ [e_path_id_off, e_path_id_on]
  disable_plain : s.disable_path ∉ [e_path_id_off, e_path_id_on]
  sided : Sided s.isInput s.current_devices
  closed : s.ref_count ≤ 0 → s.current_devices = 0

structure Inv (cm : ConfigMgr) : Prop where
  table : Table (types cm.devices)
  streams : ∀ s ∈ cm.streams, s.Ok
  counts : ∀ dev ∈ cm.devices, dev.use_count = cm.users dev.type

/-- What was applied to device `k`. -/
def appliedTo (k : Nat) (applied : List Applied) : List Path :=
  (applied.filter fun a => a.device = k).map Applied.path

/-- A call changes every device along with its users. -/
def Effect (cm cm' : ConfigMgr) (applied : List Applied) : Prop :=
  ∀ k dev, cm.devices[k]? = some dev → ∃ dev', cm'.devices[k]? = some dev' ∧
    Outcome dev dev' (appliedTo k applied) (cm.users dev.type) (cm'.users dev.type)

theorem Inv.of_effect {cm cm' : ConfigMgr} {applied : List Applied} (h : Inv cm)
    (hstatic : cm'.devices.map Device.static = cm.devices.map Device.static)
    (hstreams : ∀ s ∈ cm'.streams, s.Ok) (heffect : Effect cm cm' applied) : Inv cm' := by
  refine ⟨types_of_static hstatic ▸ h.table, hstreams, fun dev' hdev' => ?_⟩
  obtain ⟨k, hk⟩ := List.mem_iff_getElem?.mp hdev'
  obtain ⟨dev, hdev, heq, -⟩ := getElem?_of_static hstatic hk
  obtain ⟨dev'', hdev'', hout⟩ := heffect k dev hdev
  obtain rfl : dev' = dev'' := Option.some.inj (hk.symm.trans hdev'')
  rw [← heq]
  exact (hout.exact (h.counts dev (List.mem_of_getElem? hdev))).1

/-! ## apply_route -/

/-- One loop at one device. -/
theorem applyPathsToDevices_at {devs : List Device} {k : Nat} {dev : Device} (hk : devs[k]? = some dev)
    (m : Mask) (first second : Int) :
    (applyPathsToDevices devs m first second).1[k]? =
        some (visit first second m ((types devs).take k) dev).1 ∧
      appliedTo k (applyPathsToDevices devs m first second).2 =
        (visit first second m ((types devs).take k) dev).2 := by
  constructor
  · rw [applyPathsToDevices_getElem?, hk, Option.map_some]
  · rw [appliedTo, applyPathsToDevices_filter, hk, Option.map_some, Option.getD_some, List.map_map]
    exact List.map_id _

theorem visit_of_not_reached {first second : Int} {m : Mask} {before : List Mask} {dev : Device}
    (h : ¬ ReachedBy m before dev.type) : visit first second m before dev = (dev, []) :=
  if_neg h

theorem visit_of_reached {first second : Int} {m : Mask} {before : List Mask} {dev : Device}
    (h : ReachedBy m before dev.type) : visit first second m before dev = applyPathsById dev first second :=
  if_pos h

/-- What `apply_route` accepts is on the stream's side. -/
theorem newDevices_sided {all : AllDevices} {s : Stream} {devices new : Mask}
    (h : newDevices all s devices = some new) : Sided s.isInput devices ∧ Sided s.isInput new := by
  unfold newDevices at h
  split_ifs at h with hzero hdir hin hin
  · subst hzero
    obtain rfl := Option.some.inj h
    exact ⟨fun _ => BitVec.zero_and, fun _ => BitVec.zero_and⟩
  · rw [hin]
    exact ⟨fun hf => (by cases hf), fun hf => (by cases hf)⟩
  · obtain rfl := Option.some.inj h
    have hside : Sided s.isInput devices := fun _ => not_not.mp hdir
    exact ⟨hside, hside.mono (incl_and_left _ _)⟩

/-- The filter of `apply_route` does not touch the bits of the stream's devices. -/
theorem newDevices_low {all : AllDevices} {s : Stream} {devices new t : Mask}
    (h : newDevices all s devices = some new) (ht : t ∈ deviceTable.map Prod.snd)
    (hside : isInputType t = s.isInput) : t &&& low new = t &&& low devices := by
  obtain ⟨d, hd, rfl⟩ := List.mem_map.mp ht
  have hcovers := all.covers d hd
  refine BitVec.eq_of_getLsbD_eq fun b _ => ?_
  simp only [BitVec.getLsbD_and, low_getLsbD]
  cases hbit : d.2.getLsbD b with
  | false => rfl
  | true =>
    have hmask := congrArg (fun m => m.getLsbD b) hcovers
    simp only [BitVec.getLsbD_and, hbit, Bool.true_and] at hmask
    unfold newDevices at h
    split_ifs at h with hzero hdir hin hin
    · subst hzero
      obtain rfl := Option.some.inj h
      rfl
    · obtain rfl := Option.some.inj h
      rw [if_neg (of_decide_eq_true (hside.trans hin))] at hmask
      rw [BitVec.getLsbD_or, BitVec.getLsbD_and, hmask, BitVec.getLsbD_not]
      cases AUDIO_DEVICE_BIT_IN.getLsbD b <;> simp
    · obtain rfl := Option.some.inj h
      rw [if_pos (not_not.mp (of_decide_eq_false (hside.trans (Bool.eq_false_iff.mpr hin))))] at hmask
      rw [BitVec.getLsbD_and, hmask, Bool.and_true]

theorem disabling_sided {s : Stream} (h : Sided s.isInput s.current_devices) (devices : Mask) :
    Sided s.isInput (disabling s devices) :=
  h.mono (incl_and_right _ _)

theorem enabling_sided {s : Stream} {devices : Mask} (h : Sided s.isInput devices) :
    Sided s.isInput (enabling s devices) :=
  h.mono (incl_and_left _ _)

section

variable {t m m' : Mask} {s : Stream} {devices : Mask}

theorem disabling_meets (h : t &&& low (disabling s devices) ≠ 0) :
    t &&& low s.current_devices ≠ 0 ∧ t &&& low (enabling s devices ||| disabling s devices) ≠ 0 :=
  ⟨((incl_and_right _ _).and_right _).meets h, ((incl_or_right _ _).and_right _).meets h⟩

theorem enabling_meets (h : t &&& low (enabling s devices) ≠ 0) :
    t &&& low devices ≠ 0 ∧ t &&& low (enabling s devices ||| disabling s devices) ≠ 0 :=
  ⟨((incl_and_left _ _).and_right _).meets h, ((incl_or_left _ _).and_right _).meets h⟩

/-- A mask that loses no bit of `t` still meets it. -/
theorem meets_of_kept (hkept : t &&& low (m &&& ~~~m') = 0) (h : t &&& low m ≠ 0) :
    t &&& low m' ≠ 0 := by
  obtain ⟨b, ht, hm⟩ := and_ne_zero_iff.mp h
  rw [low_getLsbD, Bool.and_eq_true] at hm
  refine and_ne_zero_iff.mpr ⟨b, ht, ?_⟩
  rw [low_getLsbD, hm.2, Bool.and_true]
  by_contra hne
  refine and_ne_zero_iff.mpr ⟨b, ht, ?_⟩ hkept
  rw [low_getLsbD, BitVec.getLsbD_and, BitVec.getLsbD_not, hm.1, hm.2, Bool.eq_false_iff.mpr hne,
    decide_eq_true (BitVec.lt_of_getLsbD ht)]
  rfl

/-- A device that keeps its bits keeps its route. -/
theorem meets_iff_of_kept (hdis : t &&& low (disabling s devices) = 0)
    (hen : t &&& low (enabling s devices) = 0) :
    t &&& low s.current_devices ≠ 0 ↔ t &&& low devices ≠ 0 := by
  rw [disabling, BitVec.and_comm (~~~devices)] at hdis
  exact ⟨meets_of_kept hdis, meets_of_kept hen⟩

end

theorem routedTo_iff {s : Stream} {t : Mask} : s.routedTo t = true ↔
    0 < s.ref_count ∧ isInputType t = s.isInput ∧ t &&& low s.current_devices ≠ 0 := by
  simp [Stream.routedTo, and_assoc]

theorem appliedTo_append (k : Nat) (as bs : List Applied) :
    appliedTo k (as ++ bs) = appliedTo k as ++ appliedTo k bs := by
  rw [appliedTo, List.filter_append, List.map_append]
  rfl

theorem visit_type (first second : Int) (m : Mask) (before : List Mask) (dev : Device) :
    (visit first second m before dev).1.type = dev.type := by
  unfold visit visited
  split
  · exact congrArg Prod.fst (applyPathsById_static dev first second)
  · rfl

/-- How the two loops of a route treat one device. -/
inductive Change (dev : Device) (reached₁ reached₂ : Prop) : (was is : Bool) → Prop
  | none {b : Bool} (h₁ : ¬ reached₁) (h₂ : ¬ reached₂) : Change dev reached₁ reached₂ b b
  | off (h₁ : reached₁) (h₂ : ¬ reached₂) (hoff : dev.HasPath e_path_id_off) :
      Change dev reached₁ reached₂ true false
  | on (h₁ : ¬ reached₁) (h₂ : reached₂) (hon : dev.HasPath e_path_id_on) :
      Change dev reached₁ reached₂ false true

theorem Change.outcome {dev : Device} {m₁ m₂ : Mask} {before : List Mask} {s : Stream} (hok : s.Ok)
    {was is : Bool} (h : Change dev (ReachedBy m₁ before dev.type) (ReachedBy m₂ before dev.type) was is)
    {n n' : Nat} (hn : n' + was.toNat = n + is.toNat) :
    Outcome dev
      (visit e_path_id_on s.enable_path m₂ before
        (visit s.disable_path e_path_id_off m₁ before dev).1).1
      ((visit s.disable_path e_path_id_off m₁ before dev).2 ++
        (visit e_path_id_on s.enable_path m₂ before
          (visit s.disable_path e_path_id_off m₁ before dev).1).2) n n' := by
  cases h with
  | none h₁ h₂ =>
    obtain rfl : n' = n := by omega
    rw [visit_of_not_reached h₁, visit_of_not_reached h₂]
    exact .same rfl rfl rfl
  | off h₁ h₂ hoff =>
    obtain rfl : n = n' + 1 := by simpa using hn.symm
    rw [← visit_type s.disable_path e_path_id_off m₁ before dev] at h₂
    rw [visit_of_not_reached h₂, visit_of_reached h₁, List.append_nil]
    refine applyPathsById_second hok.disable_plain hoff (fun h => ?_) fun p => off_outcome
    exact hok.disable_plain (h ▸ List.mem_cons_self)
  | on h₁ h₂ hon =>
    obtain rfl : n' = n + 1 := by simpa using hn
    rw [visit_of_not_reached h₁, visit_of_reached h₂, List.nil_append]
    exact applyPathsById_first hon hok.enable_plain fun p => on_outcome

/-- What a route changes for a device, before and after. -/
theorem route_change {all : AllDevices} {cm : ConfigMgr} {s : Stream} {devices new : Mask}
    (hinv : Inv cm) (hok : s.Ok) (hnew : newDevices all s devices = some new)
    (hopen : 0 < s.ref_count) (hdis : Reserved s.isInput (disabling s devices) cm.devices)
    (hen : Reserved s.isInput (enabling s devices) cm.devices) {k : Nat} {dev : Device}
    (hk : cm.devices[k]? = some dev) (hmoves : Moves s devices dev) :
    Change dev (ReachedBy (disabling s devices) ((types cm.devices).take k) dev.type)
      (ReachedBy (enabling s devices) ((types cm.devices).take k) dev.type)
      (s.routedTo dev.type) (({ s with current_devices := new } : Stream).routedTo dev.type) := by
  have hkt : (types cm.devices)[k]? = some dev.type := by rw [types, List.getElem?_map, hk, Option.map_some]
  by_cases hside : isInputType dev.type = s.isInput
  · have hr₁ := reachedBy_iff hinv.table (disabling_sided hok.sided devices) hdis hkt hside
    have hr₂ := reachedBy_iff hinv.table (enabling_sided (newDevices_sided hnew).1) hen hkt hside
    have hlow := newDevices_low hnew (hinv.table.in_table _ (List.mem_of_getElem? hkt)) hside
    have hwas : s.routedTo dev.type = true ↔ dev.type &&& low s.current_devices ≠ 0 :=
      routedTo_iff.trans ⟨fun h => h.2.2, fun h => ⟨hopen, hside, h⟩⟩
    have his : ({ s with current_devices := new } : Stream).routedTo dev.type = true ↔
        dev.type &&& low devices ≠ 0 := by
      rw [← hlow]
      exact routedTo_iff.trans ⟨fun h => h.2.2, fun h => ⟨hopen, hside, h⟩⟩
    by_cases hd : dev.type &&& low (disabling s devices) = 0
    · by_cases he : dev.type &&& low (enabling s devices) = 0
      · have hsame : ({ s with current_devices := new } : Stream).routedTo dev.type =
            s.routedTo dev.type := by
          rw [Bool.eq_iff_iff, hwas, his, meets_iff_of_kept hd he]
        rw [hsame]
        exact .none (fun h => hr₁.mp h hd) (fun h => hr₂.mp h he)
      · obtain ⟨hdev, hchange⟩ := enabling_meets he
        rcases hmoves hside hchange with ⟨hcur, hon⟩ | ⟨hnone, -⟩
        · rw [his.mpr hdev, Bool.eq_false_iff.mpr fun h => hwas.mp h hcur]
          exact .on (fun h => hr₁.mp h hd) (hr₂.mpr he) hon
        · exact absurd hnone hdev
    · obtain ⟨hcur, hchange⟩ := disabling_meets hd
      rcases hmoves hside hchange with ⟨hnone, -⟩ | ⟨hdev, hoff⟩
      · exact absurd hnone hcur
      · rw [hwas.mpr hcur, Bool.eq_false_iff.mpr fun h => his.mp h hdev]
        exact .off (hr₁.mpr hd) (fun h => (enabling_meets (hr₂.mp h)).1 hdev) hoff
  · have hwas : s.routedTo dev.type = false :=
      Bool.eq_false_iff.mpr fun h => hside (routedTo_iff.mp h).2.1
    have his : ({ s with current_devices := new } : Stream).routedTo dev.type = false :=
      Bool.eq_false_iff.mpr fun h => hside (routedTo_iff.mp h).2.1
    rw [hwas, his]
    exact .none (reserved_iff.mp hdis k _ hkt hside) (reserved_iff.mp hen k _ hkt hside)

theorem applyRoute_effect {all : AllDevices} {cm : ConfigMgr} {i : Nat} {s : Stream} {devices new : Mask}
    (hinv : Inv cm) (hs : cm.streams[i]? = some s) (hnew : newDevices all s devices = some new)
    (hopen : 0 < s.ref_count) (hdis : Reserved s.isInput (disabling s devices) cm.devices)
    (hen : Reserved s.isInput (enabling s devices) cm.devices)
    (hmoves : ∀ dev ∈ cm.devices, Moves s devices dev) :
    Effect cm (applyRoute all cm i s devices).1 (applyRoute all cm i s devices).2 := by
  intro k dev hk
  have hok := hinv.streams s (List.mem_of_getElem? hs)
  have htypes : types (applyPathsToDevices cm.devices (disabling s devices) s.disable_path
      e_path_id_off).1 = types cm.devices := types_of_static (applyPathsToDevices_static _ _ _ _)
  obtain ⟨hdev₁, hps₁⟩ := applyPathsToDevices_at hk (disabling s devices) s.disable_path e_path_id_off
  obtain ⟨hdev₂, hps₂⟩ := applyPathsToDevices_at hdev₁ (enabling s devices) e_path_id_on s.enable_path
  rw [htypes] at hdev₂ hps₂
  have hchange := route_change hinv hok hnew hopen hdis hen hk (hmoves dev (List.mem_of_getElem? hk))
  unfold applyRoute
  rw [hnew]
  refine ⟨_, hdev₂, ?_⟩
  dsimp only
  rw [appliedTo_append, hps₁, hps₂]
  exact hchange.outcome hok (users_set hs _ dev.type)

/-! ## get_stream and release_stream -/

/-- No on or off path is among `ps`. -/
theorem times_eq_zero {ps : List Path} (h : ∀ p ∈ ps, p.id ∉ [e_path_id_off, e_path_id_on]) {id : Int}
    (hid : id ∈ [e_path_id_off, e_path_id_on]) : times id ps = 0 := by
  refine List.countP_eq_zero.mpr fun p hp heq => h p hp ?_
  rw [of_decide_eq_true heq]
  exact hid

section

variable {first second : Int}

/-- The global device does not have `id`, if that is a counted path. -/
def Plain (devs : List Device) (id : Int) : Prop :=
  id ∈ [e_path_id_off, e_path_id_on] → GlobalLacks devs id

theorem Plain.not_mem {devs : List Device} {id : Int} (h : Plain devs id) {dev : Device}
    (hdev : globalDevice devs = some dev) {p : Path} (hp : p ∈ dev.paths) (hid : p.id = id) :
    p.id ∉ [e_path_id_off, e_path_id_on] :=
  fun hmem => h (hid ▸ hmem) dev hdev ⟨p, hp, hid⟩

theorem Plain.tail {dev : Device} {rest : List Device} {id : Int} (h : Plain (dev :: rest) id)
    (hdev : ¬ dev.type = 0) : Plain rest id := by
  unfold Plain GlobalLacks at h ⊢
  rw [globalDevice_cons_of_ne hdev] at h
  exact h

theorem applyPathsById_custom {dev : Device}
    (h : ∀ p ∈ dev.paths, p.id = first ∨ p.id = second → p.id ∉ [e_path_id_off, e_path_id_on]) :
    (applyPathsById dev first second).1 = dev := by
  have hall := @findPaths_all first second dev.paths (none, none)
    (fun p => p.id ∉ [e_path_id_off, e_path_id_on]) (fun p => p.id ∉ [e_path_id_off, e_path_id_on])
    (fun p hp hid => h p hp (Or.inl hid)) (fun p hp hid => h p hp (Or.inr hid))
    (fun _ hp => (by cases hp)) (fun _ hp => (by cases hp))
  unfold applyPathsById
  dsimp only
  rw [(applyFound_custom hall.1).1, (applyFound_custom hall.2).1]

theorem applyGlobalLoop_custom {devs : List Device} {i : Nat} (h₁ : Plain devs first)
    (h₂ : Plain devs second) : (applyGlobalLoop first second i devs).1 = devs := by
  induction devs generalizing i with
  | nil => rfl
  | cons dev rest ih =>
    rw [applyGlobalLoop]
    split
    case isTrue htype =>
      have hfirst : globalDevice (dev :: rest) = some dev := List.find?_cons_of_pos (by simpa using htype)
      refine congrArg (· :: rest) (applyPathsById_custom fun p hp hid => ?_)
      exact hid.elim (h₁.not_mem hfirst hp) (h₂.not_mem hfirst hp)
    case isFalse htype =>
      exact congrArg (dev :: ·) (ih (h₁.tail htype) (h₂.tail htype))

/-- Global paths other than on and off are not counted. -/
theorem applyPathsToGlobal_custom {devs : List Device} (h₁ : Plain devs first) (h₂ : Plain devs second) :
    (applyPathsToGlobal devs first second).1 = devs ∧
      ∀ k, ∀ id ∈ [e_path_id_off, e_path_id_on],
        times id (appliedTo k (applyPathsToGlobal devs first second).2) = 0 := by
  refine ⟨applyGlobalLoop_custom h₁ h₂, fun k id => times_eq_zero fun p hp => ?_⟩
  obtain ⟨a, ha, rfl⟩ := List.mem_map.mp hp
  obtain ⟨dev, -, hfirst, hmem, hid⟩ := mem_applyPathsToGlobal (List.mem_filter.mp ha).1
  exact hid.elim (h₁.not_mem hfirst hmem) (h₂.not_mem hfirst hmem)

end

theorem routedTo_of_none {s : Stream} (h : s.current_devices = 0) (t : Mask) : s.routedTo t = false := by
  refine Bool.eq_false_iff.mpr fun hr => (routedTo_iff.mp hr).2.2 ?_
  rw [h, show low 0 = (0 : Mask) by decide]
  exact BitVec.and_zero

/-- Another count of references leaves the route, as long as the stream stays open or
has no devices. -/
theorem routedTo_recount {s : Stream} {r : Int} (h : (0 < s.ref_count ↔ 0 < r) ∨ s.current_devices = 0)
    (t : Mask) : ({ s with ref_count := r } : Stream).routedTo t = s.routedTo t := by
  rcases h with h | h
  · rw [Bool.eq_iff_iff, routedTo_iff, routedTo_iff]
    exact and_congr_left fun _ => h.symm
  · rw [routedTo_of_none h, routedTo_of_none]
    exact h

/-- A call that leaves routes and devices alone. -/
theorem effect_of_same {cm : ConfigMgr} {i : Nat} {s s' : Stream} (hs : cm.streams[i]? = some s)
    (hroute : ∀ t, s'.routedTo t = s.routedTo t) {devs : List Device} {applied : List Applied}
    (hdevs : devs = cm.devices ∧ ∀ k, ∀ id ∈ [e_path_id_off, e_path_id_on],
      times id (appliedTo k applied) = 0) :
    Effect cm ⟨devs, cm.streams.set i s'⟩ applied := by
  obtain ⟨rfl, hnone⟩ := hdevs
  intro k dev hk
  have hset := users_set hs s' dev.type
  rw [hroute] at hset
  refine ⟨dev, hk, ?_⟩
  rw [show (⟨cm.devices, cm.streams.set i s'⟩ : ConfigMgr).users dev.type = cm.users dev.type from
    Nat.add_right_cancel hset]
  exact .same rfl (hnone k _ (by decide)) (hnone k _ (by decide))

theorem openStream_effect {cm : ConfigMgr} {i : Nat} {s : Stream} {r : ConfigMgr × List Applied}
    (hinv : Inv cm) (hs : cm.streams[i]? = some s) (hr : openStream cm i s = some r)
    (hglobal : s.ref_count = 0 → 0 < s.max_ref_count → GlobalLacks cm.devices e_path_id_on) :
    Effect cm r.1 r.2 := by
  have hok := hinv.streams s (List.mem_of_getElem? hs)
  obtain ⟨hmax, hr⟩ := Option.ite_none_right_eq_some.mp hr
  obtain rfl := Option.some.inj hr
  refine effect_of_same hs (fun t => routedTo_recount ?_ t) ?_
  · by_cases hpos : 0 < s.ref_count
    · exact Or.inl ⟨fun _ => by omega, fun _ => hpos⟩
    · exact Or.inr (hok.closed (by omega))
  · split
    case isTrue hfirst =>
      change s.ref_count + 1 = 1 at hfirst
      have hlacks := hglobal (by omega) (by omega)
      exact applyPathsToGlobal_custom (fun _ => hlacks) fun hid => absurd hid hok.enable_plain
    case isFalse => exact ⟨rfl, fun _ _ _ => rfl⟩

/-- The loop over the devices of a stream that is released for the last time. -/
theorem release_outcome {cm : ConfigMgr} {i : Nat} {s : Stream} (hinv : Inv cm)
    (hs : cm.streams[i]? = some s) (hlast : s.ref_count = 1)
    (hres : Reserved s.isInput s.current_devices cm.devices)
    (hoff : ∀ dev ∈ cm.devices, isInputType dev.type = s.isInput →
      dev.type &&& low s.current_devices ≠ 0 → dev.HasPath e_path_id_off)
    {s' : Stream} (hs' : s'.current_devices = 0) {k : Nat} {dev : Device}
    (hk : cm.devices[k]? = some dev) :
    Outcome dev
      (visit e_path_id_off s.disable_path s.current_devices ((types cm.devices).take k) dev).1
      (visit e_path_id_off s.disable_path s.current_devices ((types cm.devices).take k) dev).2
      (cm.users dev.type) (users (cm.streams.set i s') dev.type) := by
  have hok := hinv.streams s (List.mem_of_getElem? hs)
  have hkt : (types cm.devices)[k]? = some dev.type := by
    rw [types, List.getElem?_map, hk, Option.map_some]
  have hset := users_set hs s' dev.type
  rw [routedTo_of_none hs' dev.type] at hset
  by_cases hrouted : s.routedTo dev.type = true
  · obtain ⟨-, hside, hmeets⟩ := routedTo_iff.mp hrouted
    rw [hrouted] at hset
    rw [visit_of_reached ((reachedBy_iff hinv.table hok.sided hres hkt hside).mpr hmeets),
      show cm.users dev.type = _ + 1 from hset.symm]
    exact applyPathsById_first (hoff dev (List.mem_of_getElem? hk) hside hmeets) hok.disable_plain
      fun p => off_outcome
  · have hnot : ¬ ReachedBy s.current_devices ((types cm.devices).take k) dev.type := by
      by_cases hside : isInputType dev.type = s.isInput
      · intro hreach
        exact hrouted (routedTo_iff.mpr ⟨by omega, hside, hreach.meets⟩)
      · exact reserved_iff.mp hres k _ hkt hside
    rw [Bool.eq_false_iff.mpr hrouted] at hset
    rw [visit_of_not_reached hnot, show cm.users dev.type = _ from hset.symm]
    exact .same rfl rfl rfl

theorem releaseStream_effect {cm : ConfigMgr} {i : Nat} {s : Stream} (hinv : Inv cm)
    (hs : cm.streams[i]? = some s)
    (hcounted : s.ref_count = 1 → Reserved s.isInput s.current_devices cm.devices ∧
      (∀ dev ∈ cm.devices, isInputType dev.type = s.isInput →
        dev.type &&& low s.current_devices ≠ 0 → dev.HasPath e_path_id_off) ∧
      GlobalLacks cm.devices e_path_id_off) :
    Effect cm (releaseStream cm i s).1 (releaseStream cm i s).2 := by
  have hok := hinv.streams s (List.mem_of_getElem? hs)
  unfold releaseStream
  dsimp only
  split
  case isFalse hmore =>
    refine effect_of_same hs (fun t => routedTo_recount (Or.inl ?_) t) ⟨rfl, fun _ _ _ => rfl⟩
    exact ⟨fun _ => by omega, fun _ => by omega⟩
  case isTrue hlast =>
    have hone : s.ref_count = 1 := by omega
    obtain ⟨hres, hoff, hlacks⟩ := hcounted hone
    obtain ⟨hglobal, hnone⟩ := @applyPathsToGlobal_custom s.disable_path e_path_id_off
      (applyPathsToDevices cm.devices s.current_devices e_path_id_off s.disable_path).1
      (fun hid => absurd hid hok.disable_plain)
      (fun _ => hlacks.of_static (applyPathsToDevices_static _ _ _ _))
    intro k dev hk
    obtain ⟨hdev, hps⟩ := applyPathsToDevices_at hk s.current_devices e_path_id_off s.disable_path
    refine ⟨_, hglobal.symm ▸ hdev, ?_⟩
    rw [appliedTo_append, hps]
    -- the global paths count nothing, so only the loop over the devices matters
    refine (release_outcome hinv hs hone hres hoff rfl hk).congr rfl ?_ ?_
    · rw [times_append, hnone k _ (by decide), Nat.add_zero]
    · rw [times_append, hnone k _ (by decide), Nat.add_zero]

/-! ## Runs -/

/-- What a call keeps, and what it does to the devices. -/
structure Keeps (cm : ConfigMgr) (r : ConfigMgr × List Applied) : Prop where
  static : r.1.devices.map Device.static = cm.devices.map Device.static
  streams : ∀ s ∈ r.1.streams, s.Ok
  effect : Effect cm r.1 r.2

theorem keeps_nothing {cm : ConfigMgr} (hinv : Inv cm) : Keeps cm (cm, []) :=
  ⟨rfl, hinv.streams, fun _ dev hk => ⟨dev, hk, .same rfl rfl rfl⟩⟩

theorem Inv.set_ok {cm : ConfigMgr} (hinv : Inv cm) (i : Nat) {s : Stream} (hs : s.Ok) :
    ∀ x ∈ cm.streams.set i s, x.Ok := by
  intro x hx
  rcases List.mem_or_eq_of_mem_set hx with hx | rfl
  · exact hinv.streams x hx
  · exact hs

theorem openStream_keeps {cm : ConfigMgr} {i : Nat} {s : Stream} {r : ConfigMgr × List Applied}
    (hinv : Inv cm) (hs : cm.streams[i]? = some s) (hr : openStream cm i s = some r)
    (hglobal : s.ref_count = 0 → 0 < s.max_ref_count → GlobalLacks cm.devices e_path_id_on) :
    Keeps cm r := by
  have heffect := openStream_effect hinv hs hr hglobal
  have hok := hinv.streams s (List.mem_of_getElem? hs)
  obtain ⟨-, hr⟩ := Option.ite_none_right_eq_some.mp hr
  obtain rfl := Option.some.inj hr
  refine ⟨?_, hinv.set_ok i ⟨hok.1, hok.2, hok.3, fun h => hok.closed ?_⟩, heffect⟩
  · dsimp only
    split
    · exact applyGlobalLoop_static _ _ _ _
    · rfl
  · change s.ref_count + 1 ≤ 0 at h
    omega

theorem Opens.keeps {cm : ConfigMgr} {wanted : Stream → Prop}
    {r : ConfigMgr × Option Nat × List Applied} (h : Opens cm wanted r) (hinv : Inv cm)
    (hok : ∀ s ∈ cm.streams, wanted s → s.ref_count = 0 → 0 < s.max_ref_count →
      GlobalLacks cm.devices e_path_id_on) : Keeps cm (r.1, r.2.2) := by
  rcases h with rfl | ⟨i, s, r', hs, hwanted, ho, rfl⟩
  · exact keeps_nothing hinv
  · exact openStream_keeps hinv hs ho (hok s (List.mem_of_getElem? hs) hwanted)

theorem applyRoute_keeps {all : AllDevices} {cm : ConfigMgr} {i : Nat} {s : Stream} {devices : Mask}
    (hinv : Inv cm) (hs : cm.streams[i]? = some s) (hcounted : Counted all cm (.applyRoute i devices)) :
    Keeps cm (applyRoute all cm i s devices) := by
  have hok := hinv.streams s (List.mem_of_getElem? hs)
  cases hnew : newDevices all s devices with
  | none =>
    unfold applyRoute
    rw [hnew]
    exact keeps_nothing hinv
  | some new =>
    obtain ⟨hopen, hdis, hen, hmoves⟩ := hcounted s hs (by rw [hnew]; rfl)
    refine ⟨?_, ?_, applyRoute_effect hinv hs hnew hopen hdis hen hmoves⟩
    · unfold applyRoute
      rw [hnew]
      exact (applyPathsToDevices_static _ _ _ _).trans (applyPathsToDevices_static _ _ _ _)
    · unfold applyRoute
      rw [hnew]
      refine hinv.set_ok i ⟨hok.1, hok.2, (newDevices_sided hnew).2, fun h => ?_⟩
      change s.ref_count ≤ 0 at h
      omega

theorem releaseStream_keeps {all : AllDevices} {cm : ConfigMgr} {i : Nat} {s : Stream} (hinv : Inv cm)
    (hs : cm.streams[i]? = some s) (hcounted : Counted all cm (.releaseStream i)) :
    Keeps cm (releaseStream cm i s) := by
  have hok := hinv.streams s (List.mem_of_getElem? hs)
  refine ⟨?_, ?_, releaseStream_effect hinv hs (hcounted s hs)⟩
  · unfold releaseStream
    dsimp only
    split
    · exact (applyGlobalLoop_static _ _ _ _).trans (applyPathsToDevices_static _ _ _ _)
    · rfl
  · unfold releaseStream
    dsimp only
    split
    case isTrue => exact hinv.set_ok i ⟨hok.1, hok.2, fun _ => BitVec.zero_and, fun _ => rfl⟩
    case isFalse hmore =>
      refine hinv.set_ok i ⟨hok.1, hok.2, hok.3, fun h => hok.closed ?_⟩
      change s.ref_count - 1 ≤ 0 at h
      omega

/-- **Step lemma.** -/
theorem step_keeps {all : AllDevices} {cm : ConfigMgr} (hinv : Inv cm) {call : Call}
    (hcounted : Counted all cm call) : Keeps cm (cm.step all call) := by
  cases call with
  | getStream devices pcm => exact (getStreamLoop_opens cm _ _).keeps hinv hcounted
  | getNamedStream name => exact (getNamedStream_opens cm name).keeps hinv hcounted
  | applyRoute i devices =>
    cases hs : cm.streams[i]? with
    | none =>
      rw [show cm.step all (.applyRoute i devices) = (cm, []) by rw [ConfigMgr.step, hs]]
      exact keeps_nothing hinv
    | some s =>
      rw [show cm.step all (.applyRoute i devices) = applyRoute all cm i s devices by
        rw [ConfigMgr.step, hs]]
      exact applyRoute_keeps hinv hs hcounted
  | releaseStream i =>
    cases hs : cm.streams[i]? with
    | none =>
      rw [show cm.step all (.releaseStream i) = (cm, []) by rw [ConfigMgr.step, hs]]
      exact keeps_nothing hinv
    | some s =>
      rw [show cm.step all (.releaseStream i) = releaseStream cm i s by rw [ConfigMgr.step, hs]]
      exact releaseStream_keeps hinv hs hcounted

theorem parsed_inv {cm : ConfigMgr} (h : cm.Parsed) (hplain : PlainPaths cm) : Inv cm := by
  refine ⟨⟨fun t ht => ?_, ?_⟩, fun s hs => ?_, fun dev hdev => ?_⟩
  · obtain ⟨dev, hdev, rfl⟩ := List.mem_map.mp ht
    exact h.in_table dev hdev
  · rw [types, List.pairwise_map]
    exact h.distinct
  · obtain ⟨hen, hdis⟩ := hplain s hs
    obtain ⟨-, hnone⟩ := h.closed s hs
    exact ⟨hen, hdis, fun _ => by rw [hnone]; exact BitVec.zero_and, fun _ => hnone⟩
  · rw [h.unused dev hdev]
    refine (Int.natCast_eq_zero.mpr (List.countP_eq_zero.mpr fun s hs => ?_)).symm
    rw [routedTo_of_none (h.closed s hs).2]
    exact Bool.false_ne_true

/-- How often a call applied the path `id` of device `k`. -/
def Event.times (e : Event) (k : Nat) (id : Int) : Nat := Audio.times id (appliedTo k e.applied)

/-- The on and off paths are applied when the first user comes and the last one goes. -/
def Event.Exact (e : Event) : Prop :=
  ∀ k dev, e.before.devices[k]? = some dev →
    e.times k e_path_id_on =
        (if e.before.users dev.type = 0 ∧ e.after.users dev.type = 1 then 1 else 0) ∧
      e.times k e_path_id_off =
        (if e.before.users dev.type = 1 ∧ e.after.users dev.type = 0 then 1 else 0)

/-- **Use counts.** -/
theorem use_count_exact (all : AllDevices) (s : Session) (h : Run all PlainPaths (Counted all) s) :
    (∀ dev ∈ s.cm.devices, dev.use_count = s.cm.users dev.type) ∧
      ∀ e ∈ s.log, e.Exact := by
  have hinv : Inv s.cm ∧ ∀ e ∈ s.log, e.Exact := by
    refine Reachable.invariant (P := fun s => Inv s.cm ∧ ∀ e ∈ s.log, e.Exact) ?_ ?_ h
    · rintro s ⟨hparsed, hplain, hlog⟩
      refine ⟨parsed_inv hparsed hplain, fun e he => ?_⟩
      rw [hlog] at he
      exact absurd he List.not_mem_nil
    · intro s call s' ih hok hs
      obtain ⟨-, hs⟩ := Option.ite_none_right_eq_some.mp hs
      obtain rfl := Option.some.inj hs
      obtain ⟨hstatic, hstreams, heffect⟩ := step_keeps ih.1 hok
      refine ⟨ih.1.of_effect hstatic hstreams heffect, fun e he => ?_⟩
      rcases List.mem_append.mp he with he | he
      · exact ih.2 e he
      · obtain rfl := List.mem_singleton.mp he
        intro k dev hk
        obtain ⟨dev', -, hout⟩ := heffect k dev hk
        exact (hout.exact (ih.1.counts dev (List.mem_of_getElem? hk))).2
  exact ⟨hinv.1.counts, hinv.2⟩

instance (all : AllDevices) (cm : ConfigMgr) (call : Call) : Decidable (Counted all cm call) :=
  match call with
  | .applyRoute i devices => inferInstanceAs (Decidable (∀ s ∈ cm.streams[i]?,
      (newDevices all s devices).isSome = true → _ ∧ _ ∧ _ ∧ ∀ dev ∈ cm.devices, _))
  | .releaseStream i => inferInstanceAs (Decidable (∀ s ∈ cm.streams[i]?, s.ref_count = 1 →
      _ ∧ (∀ dev ∈ cm.devices, _ → _ → _) ∧ _))
  | .getStream devices pcm => inferInstanceAs (Decidable (WhenOpened cm (.getStream devices pcm) _))
  | .getNamedStream name => inferInstanceAs (Decidable (WhenOpened cm (.getNamedStream name) _))

/-- A speaker and a microphone with "on" and "off" paths, global settings, two playback
streams and one for recording. -/
def pairedConfig : ConfigMgr where
  devices :=
    [⟨AUDIO_DEVICE_OUT_SPEAKER, 0, pathsWith [e_path_id_on, e_path_id_off, 2, 3]⟩,
     ⟨0, 0, pathsWith [2, 3]⟩,
     ⟨AUDIO_DEVICE_IN_BUILTIN_MIC, 0, pathsWith [e_path_id_on, e_path_id_off]⟩]
  streams :=
    [⟨.out_pcm, none, 0, 1, 2, 3, 0⟩, ⟨.out_pcm, none, 0, 1, 2, 3, 0⟩, ⟨.in_pcm, none, 0, 1, 4, 5, 0⟩]

/-- Two streams share the speaker; the second one is the last to leave it. -/
def sharedCalls : List Call :=
  [.getStream AUDIO_DEVICE_OUT_SPEAKER true, .applyRoute 1 AUDIO_DEVICE_OUT_SPEAKER,
    .getStream AUDIO_DEVICE_OUT_SPEAKER true, .applyRoute 0 AUDIO_DEVICE_OUT_SPEAKER,
    .getStream AUDIO_DEVICE_IN_BUILTIN_MIC true, .applyRoute 2 AUDIO_DEVICE_IN_BUILTIN_MIC,
    .applyRoute 1 0, .releaseStream 0, .releaseStream 2]

def sharedEnd : Option Session :=
  sharedCalls.foldlM (fun s call => if Counted platformDevices s.cm call then
    s.step platformDevices call else none) ⟨pairedConfig, []⟩

theorem use_count_exact_shared :
    sharedEnd.map (fun s => s.log.map fun e => e.after.users AUDIO_DEVICE_OUT_SPEAKER) =
        some [0, 1, 1, 2, 2, 2, 1, 0, 0] ∧
      ∀ s ∈ sharedEnd, (∀ dev ∈ s.cm.devices, dev.use_count = s.cm.users dev.type) ∧
        ∀ e ∈ s.log, e.Exact :=
  ⟨by decide, fun s hs => use_count_exact platformDevices s (reachable_foldlM sharedCalls
    (.start ⟨⟨by decide, by decide, by decide, by decide⟩, by decide, rfl⟩) hs)⟩

/-- Playback to the speaker that is then routed to no device. -/
def unroutedCalls : List Call :=
  [.getStream AUDIO_DEVICE_OUT_SPEAKER true, .applyRoute 0 AUDIO_DEVICE_OUT_SPEAKER, .applyRoute 0 0]

def unroutedEnd : Option Session :=
  unroutedCalls.foldlM (fun s call => if True then s.step platformDevices call else none)
    ⟨mochaConfig, []⟩

/-- The speaker has no "off" path and is still counted when no stream is routed to it. -/
theorem speaker_stays_in_use :
    ¬ ∀ (all : AllDevices) (s : Session), Run all PlainPaths (fun _ _ => True) s →
      (∀ dev ∈ s.cm.devices, dev.use_count = s.cm.users dev.type) ∧
        ∀ e ∈ s.log, e.Exact := by
  intro h
  have hbad : unroutedEnd.map (fun s => s.cm.devices.all fun dev =>
      decide (dev.use_count = s.cm.users dev.type)) = some false := by decide
  obtain ⟨s, hs, hcounts⟩ := Option.map_eq_some_iff.mp hbad
  have hrun : Run platformDevices PlainPaths (fun _ _ => True) s :=
    reachable_foldlM unroutedCalls (.start ⟨mochaConfig_parsed, by decide, rfl⟩) hs
  have hall : (s.cm.devices.all fun dev =>
      decide (dev.use_count = s.cm.users dev.type)) = true :=
    List.all_eq_true.mpr fun dev hdev => decide_eq_true ((h platformDevices s hrun).1 dev hdev)
  rw [hall] at hcounts
  cases hcounts

end MochaHal.Audio
