import MochaHal.Sensors.Multihal

/-! `sensors/multihal.cpp`: how a call with a global handle reaches a sub-HAL.  The
handle maps count every sub-module, while `sub_hw_devices` has an entry only for the
modules that opened, and a null device is called without a test.  `dispatch_iff` says
which handles reach the right device. -/

namespace MochaHal.Sensors

def EINVAL : Int := 22

/-! ## Handles -/

/-- A sub-module: the local handles of its sensors, and whether `open` succeeds. -/
structure SubModule where
  handles : List Int
  opens : Bool
  deriving DecidableEq, Repr

/-- The global maps; `listed` says that `global_sensors_list` is set. -/
structure HandleMaps where
  global_to_full : Int → Option FullHandle
  full_to_global : GlobalHandles
  next_global_handle : Int
  listed : Bool

def HandleMaps.init : HandleMaps := ⟨fun _ => none, fun _ => none, 1, false⟩

def assignGlobalHandle (maps : HandleMaps) (full : FullHandle) : HandleMaps :=
  { maps with
    next_global_handle := maps.next_global_handle + 1
    full_to_global := Function.update maps.full_to_global full (some maps.next_global_handle)
    global_to_full := Function.update maps.global_to_full maps.next_global_handle (some full) }

/-- The loop over the modules from index `moduleIndex` on. -/
def assignModules (moduleIndex : Int) : List SubModule → HandleMaps → HandleMaps
  | [], maps => maps
  | m :: rest, maps =>
    assignModules (moduleIndex + 1) rest
      (m.handles.foldl (fun maps l => assignGlobalHandle maps ⟨moduleIndex, l⟩) maps)

def lazyInitSensorsList (mods : List SubModule) (maps : HandleMaps) : HandleMaps :=
  if maps.listed then maps else { assignModules 0 mods maps with listed := true }

def getLocalHandle (maps : HandleMaps) (handle : Int) : Int :=
  match maps.global_to_full handle with
  | none => -1
  | some full => full.localHandle

def getModuleIndex (maps : HandleMaps) (handle : Int) : Int :=
  match maps.global_to_full handle with
  | none => -1
  | some full => full.moduleIndex

/-! ## Devices and calls -/

/-- `sub_hw_devices`: each device named by the module it was opened from. -/
def openSensors (moduleIndex : Nat) : List SubModule → List Nat
  | [] => []
  | m :: rest =>
    if m.opens then moduleIndex :: openSensors (moduleIndex + 1) rest
    else openSensors (moduleIndex + 1) rest

/-- A call that is forwarded, without its handle. -/
inductive SensorOp
  | activate (enabled : Int)
  | setDelay (ns : Int)
  | batch (flags period_ns timeout : Int)
  | flush
  deriving DecidableEq, Repr

/-- A call as a sub-HAL's device receives it. -/
structure SubCall where
  device : Nat
  localHandle : Int
  op : SensorOp
  deriving DecidableEq, Repr

/-- A null device is dereferenced, or the calls were made and a value returned. -/
inductive Outcome
  | nullDereference
  | returned (retval : Int) (calls : List SubCall)
  deriving DecidableEq, Repr

/-- The proxy device: the maps and the devices that were opened. -/
structure PollContext where
  maps : HandleMaps
  sub_hw_devices : List Nat

namespace PollContext

/-- `get_v0_device_by_handle`, and `get_v1_device_by_handle`, which only casts to another type. -/
def getDeviceByHandle (ctx : PollContext) (handle : Int) : Option Nat :=
  let subIndex := getModuleIndex ctx.maps handle
  if subIndex < 0 ∨ subIndex ≥ ctx.sub_hw_devices.length then none
  else ctx.sub_hw_devices[subIndex.toNat]?

/-- The body that `activate`, `setDelay`, `batch` and `flush` share; `reply` is what the device returns. -/
def forward (reply : SubCall → Int) (ctx : PollContext) (handle : Int) (op : SensorOp) : Outcome :=
  let localHandle := getLocalHandle ctx.maps handle
  match ctx.getDeviceByHandle handle with
  | none => .nullDereference
  | some device => .returned (reply ⟨device, localHandle, op⟩) [⟨device, localHandle, op⟩]

def activate (reply : SubCall → Int) (ctx : PollContext) (handle enabled : Int) : Outcome :=
  forward reply ctx handle (.activate enabled)

def setDelay (reply : SubCall → Int) (ctx : PollContext) (handle ns : Int) : Outcome :=
  forward reply ctx handle (.setDelay ns)

def batch (reply : SubCall → Int) (ctx : PollContext) (handle flags period_ns timeout : Int) : Outcome :=
  forward reply ctx handle (.batch flags period_ns timeout)

def flush (reply : SubCall → Int) (ctx : PollContext) (handle : Int) : Outcome :=
  forward reply ctx handle .flush

end PollContext

/-- The context after `n` calls of `get_sensors_list`, and `open_sensors`. -/
def openContext (mods : List SubModule) (n : Nat) : PollContext :=
  ⟨(lazyInitSensorsList mods)^[n] .init, openSensors 0 mods⟩

/-! ## What dispatch is for -/

/-- The sensors of all modules in the order in which they are listed. -/
def sensorsFrom (moduleIndex : Int) : List SubModule → List FullHandle
  | [] => []
  | m :: rest => m.handles.map (FullHandle.mk moduleIndex) ++ sensorsFrom (moduleIndex + 1) rest

/-- The sensor that a global handle stands for: they are numbered from 1, once listed. -/
def registered (mods : List SubModule) (n : Nat) (handle : Int) : Option FullHandle :=
  if n = 0 ∨ handle < 1 then none else (sensorsFrom 0 mods)[(handle - 1).toNat]?

/-- One call with the local handle to the device of the sensor's module if that module
opened, and otherwise no call and `-EINVAL`. -/
def expected (mods : List SubModule) (n : Nat) (reply : SubCall → Int) (handle : Int)
    (op : SensorOp) : Outcome :=
  match registered mods n handle with
  | none => .returned (-EINVAL) []
  | some full =>
    match mods[full.moduleIndex.toNat]? with
    | some ⟨_, true⟩ =>
      let call : SubCall := ⟨full.moduleIndex.toNat, full.localHandle, op⟩
      .returned (reply call) [call]
    | _ => .returned (-EINVAL) []

/-! ## The handle maps -/

theorem assignModules_eq (mods : List SubModule) (i : Int) (maps : HandleMaps) :
    assignModules i mods maps = (sensorsFrom i mods).foldl assignGlobalHandle maps := by
  induction mods generalizing i maps with
  | nil => rfl
  | cons m rest ih => simp [assignModules, sensorsFrom, ih, List.foldl_append, List.foldl_map]

theorem assign_next (maps : HandleMaps) (f : FullHandle) :
    (assignGlobalHandle maps f).next_global_handle = maps.next_global_handle + 1 := rfl

theorem assign_global (maps : HandleMaps) (f : FullHandle) :
    (assignGlobalHandle maps f).global_to_full =
      Function.update maps.global_to_full maps.next_global_handle (some f) := rfl

/-- Handles are given out in order, from `next_global_handle` on. -/
theorem assign_global_to_full (fs : List FullHandle) (maps : HandleMaps) (g : Int) :
    (fs.foldl assignGlobalHandle maps).global_to_full g =
      if maps.next_global_handle ≤ g ∧ g < maps.next_global_handle + fs.length then
        fs[(g - maps.next_global_handle).toNat]?
      else maps.global_to_full g := by
  induction fs generalizing maps with
  | nil => simp
  | cons f fs ih =>
    rw [List.foldl_cons, ih, assign_next, assign_global, List.length_cons]
    by_cases hg : g = maps.next_global_handle
    · subst hg
      simp
    · by_cases hin : maps.next_global_handle + 1 ≤ g ∧ g < maps.next_global_handle + 1 + fs.length
      · have hpos : (g - maps.next_global_handle).toNat =
            (g - (maps.next_global_handle + 1)).toNat + 1 := by omega
        rw [if_pos hin, if_pos (by omega), hpos, List.getElem?_cons_succ]
      · rw [if_neg hin, if_neg (by omega), Function.update_of_ne hg]

theorem lazyInit_idem (mods : List SubModule) (n : Nat) :
    (lazyInitSensorsList mods)^[n + 1] .init = lazyInitSensorsList mods .init := by
  induction n with
  | zero => rfl
  | succ n ih =>
    rw [Function.iterate_succ_apply', ih]
    rfl

theorem registered_eq (mods : List SubModule) (n : Nat) (handle : Int) :
    (openContext mods n).maps.global_to_full handle = registered mods n handle := by
  cases n with
  | zero => simp [openContext, registered, HandleMaps.init]
  | succ n =>
    simp only [openContext, lazyInit_idem, registered, Nat.succ_ne_zero, false_or]
    have hmaps := assign_global_to_full (sensorsFrom 0 mods) .init handle
    rw [← assignModules_eq, show HandleMaps.init.next_global_handle = 1 from rfl] at hmaps
    refine hmaps.trans ?_
    by_cases hlow : handle < 1
    · rw [if_pos hlow, if_neg (by omega)]
      rfl
    · rw [if_neg hlow]
      split
      · rfl
      · rw [List.getElem?_eq_none (by omega)]
        rfl

/-! ## The opened devices -/

theorem openSensors_ge (mods : List SubModule) (i m : Nat) {d : Nat}
    (h : (openSensors i mods)[m]? = some d) : i + m ≤ d := by
  induction mods generalizing i m with
  | nil => simp [openSensors] at h
  | cons hd tl ih =>
    simp only [openSensors] at h
    split at h
    · cases m with
      | zero => simp at h; omega
      | succ m =>
        have := ih (i + 1) m (by simpa using h)
        omega
    · have := ih (i + 1) m h
      omega

/-- Modules `0 .. m` all opened. -/
def OpenedUpTo (mods : List SubModule) (m : Nat) : Prop :=
  ∀ k, k ≤ m → ∃ sub, mods[k]? = some sub ∧ sub.opens = true

theorem openedUpTo_cons_succ (hd : SubModule) (tl : List SubModule) (m : Nat) :
    OpenedUpTo (hd :: tl) (m + 1) ↔ hd.opens = true ∧ OpenedUpTo tl m := by
  constructor
  · intro h
    constructor
    · obtain ⟨sub, hsub, hopen⟩ := h 0 (by omega)
      cases hsub
      exact hopen
    · exact fun k hk => by simpa using h (k + 1) (by omega)
  · rintro ⟨hhd, htl⟩ k hk
    cases k with
    | zero => exact ⟨hd, rfl, hhd⟩
    | succ k => simpa using htl k (by omega)

/-- The device at a module's index is that module's own only if no module before it failed. -/
theorem openSensors_own_iff (mods : List SubModule) (i m : Nat) :
    (openSensors i mods)[m]? = some (i + m) ↔ OpenedUpTo mods m := by
  induction mods generalizing i m with
  | nil => simp [openSensors, OpenedUpTo]; exact ⟨0, by omega⟩
  | cons hd tl ih =>
    simp only [openSensors]
    by_cases hhd : hd.opens = true
    · cases m with
      | zero => simp [hhd, OpenedUpTo]
      | succ m =>
        rw [openedUpTo_cons_succ, if_pos hhd, List.getElem?_cons_succ,
          show i + (m + 1) = i + 1 + m by omega, ih]
        simp [hhd]
    · rw [if_neg hhd]
      constructor
      · intro h
        have := openSensors_ge tl (i + 1) m h
        omega
      · intro h
        obtain ⟨sub, hsub, hopen⟩ := h 0 (by omega)
        cases hsub
        exact absurd hopen hhd

/-! ## Dispatch -/

section
variable {mods : List SubModule} {n : Nat} {handle : Int} {full : FullHandle}

theorem sensorsFrom_bounds (mods : List SubModule) (i : Int) {f : FullHandle}
    (h : f ∈ sensorsFrom i mods) : i ≤ f.moduleIndex := by
  induction mods generalizing i with
  | nil => simp [sensorsFrom] at h
  | cons m rest ih =>
    simp only [sensorsFrom, List.mem_append, List.mem_map] at h
    rcases h with ⟨l, -, rfl⟩ | h
    · exact Int.le_refl i
    · have := ih (i + 1) h
      omega

theorem registered_nonneg (h : registered mods n handle = some full) : 0 ≤ full.moduleIndex := by
  simp only [registered] at h
  split at h
  · cases h
  · exact sensorsFrom_bounds mods 0 (List.mem_of_getElem? h)

theorem forward_unknown (reply : SubCall → Int) (op : SensorOp)
    (h : registered mods n handle = none) :
    (openContext mods n).forward reply handle op = .nullDereference := by
  simp [PollContext.forward, PollContext.getDeviceByHandle, getModuleIndex, registered_eq, h]

theorem forward_registered (reply : SubCall → Int) (op : SensorOp)
    (h : registered mods n handle = some full) :
    (openContext mods n).forward reply handle op =
      match (openSensors 0 mods)[full.moduleIndex.toNat]? with
      | none => .nullDereference
      | some device => .returned (reply ⟨device, full.localHandle, op⟩) [⟨device, full.localHandle, op⟩] := by
  have h0 := registered_nonneg h
  simp only [PollContext.forward, PollContext.getDeviceByHandle, getModuleIndex, getLocalHandle,
    registered_eq, h]
  change (match (if full.moduleIndex < 0 ∨ full.moduleIndex ≥ (openSensors 0 mods).length then none
    else (openSensors 0 mods)[full.moduleIndex.toNat]?) with
    | none => _
    | some device => _) = _
  by_cases hlen : full.moduleIndex ≥ (openSensors 0 mods).length
  · rw [if_pos (.inr hlen), List.getElem?_eq_none (by omega)]
  · rw [if_neg (by omega)]

theorem forward_iff (mods : List SubModule) (n : Nat) (reply : SubCall → Int) (handle : Int)
    (op : SensorOp) :
    (openContext mods n).forward reply handle op = expected mods n reply handle op ↔
      ∃ m l, registered mods n handle = some ⟨(m : Nat), l⟩ ∧ OpenedUpTo mods m := by
  cases hreg : registered mods n handle with
  | none => simp [forward_unknown reply op hreg, expected, hreg]
  | some full =>
    obtain ⟨index, l⟩ := full
    obtain ⟨m, rfl⟩ : ∃ m : Nat, index = m := Int.eq_ofNat_of_zero_le (registered_nonneg hreg)
    have hcond : (∃ k l', some (⟨(m : Nat), l⟩ : FullHandle) = some ⟨(k : Nat), l'⟩ ∧
        OpenedUpTo mods k) ↔ OpenedUpTo mods m := by
      constructor
      · rintro ⟨k, l', hfull, hopen⟩
        cases hfull
        exact hopen
      · exact fun hopen => ⟨m, l, rfl, hopen⟩
    have hown := openSensors_own_iff mods 0 m
    rw [Nat.zero_add] at hown
    rw [hcond, forward_registered reply op hreg]
    simp only [expected, hreg, Int.toNat_natCast]
    by_cases hopen : OpenedUpTo mods m
    · obtain ⟨⟨handles, opens⟩, hsub, rfl⟩ := hopen m (Nat.le_refl m)
      simp [hown.mpr hopen, hsub, hopen]
    · -- the device that is called, if any, is not the module's own
      simp only [hopen, iff_false]
      cases hdev : (openSensors 0 mods)[m]? with
      | none =>
        dsimp only
        split <;> simp
      | some d =>
        dsimp only
        have hne : d ≠ m := by
          rintro rfl
          exact hopen (hown.mp hdev)
        split <;> simp [hne]

end

/-- **Which calls reach the right device**: those with a registered handle whose module
and all modules before it opened. -/
theorem dispatch_iff (mods : List SubModule) (n : Nat) (reply : SubCall → Int) (handle : Int)
    (enabled ns flags period_ns timeout : Int) :
    let ctx := openContext mods n
    let reaches := ∃ m l, registered mods n handle = some ⟨(m : Nat), l⟩ ∧ OpenedUpTo mods m
    (ctx.activate reply handle enabled = expected mods n reply handle (.activate enabled) ↔ reaches) ∧
    (ctx.setDelay reply handle ns = expected mods n reply handle (.setDelay ns) ↔ reaches) ∧
    (ctx.batch reply handle flags period_ns timeout =
      expected mods n reply handle (.batch flags period_ns timeout) ↔ reaches) ∧
    (ctx.flush reply handle = expected mods n reply handle .flush ↔ reaches) :=
  ⟨forward_iff mods n reply handle _, forward_iff mods n reply handle _,
    forward_iff mods n reply handle _, forward_iff mods n reply handle _⟩

/-- Two modules of one sensor each, the first of which does not open. -/
def firstFails : List SubModule := [⟨[7], false⟩, ⟨[9], true⟩]

/-- The second module's sensor lies beyond the end of `sub_hw_devices`: activating it
dereferences a null device, although its module opened. -/
theorem failed_open_shifts_devices :
    registered firstFails 1 2 = some ⟨1, 9⟩ ∧ firstFails[1]?.map SubModule.opens = some true ∧
    (openContext firstFails 1).activate (fun _ => 0) 2 1 = .nullDereference ∧
    (openContext firstFails 1).activate (fun _ => 0) 2 1 ≠
      expected firstFails 1 (fun _ => 0) 2 (.activate 1) := by
  decide

end MochaHal.Sensors
