import MochaHal.Sensors.Dispatch

/-! `sensors/multihal.cpp`: the list of sensors that the wrapper reports.  Each sensor of
each sub-module is copied with a handle of the wrapper's own, and two maps lead from one
handle to the other.  One assignment keeps the maps inverse to each other as long as the
sensor is new (`assign_paired`), so they are after the two loops. -/

namespace MochaHal.Sensors

/-! ## Sensors -/

/-- `sensor_t`; `rest` are the fields that are copied and not read. -/
structure Sensor where
  handle : Int
  type : Int
  maxRange : Rat
  flags : BitVec 32
  fifoReservedEventCount : Nat
  fifoMaxEventCount : Nat
  rest : List (BitVec 8)
  deriving DecidableEq, Repr

def SENSOR_TYPE_PROXIMITY : Int := 8
def SENSOR_TYPE_TILT_DETECTOR : Int := 22
def SENSOR_FLAG_WAKE_UP : BitVec 32 := 1
def SENSOR_FLAG_ON_CHANGE_MODE : BitVec 32 := 2

def fixSensorFields (sensor : Sensor) : Sensor :=
  let sensor := { sensor with fifoReservedEventCount := 0, fifoMaxEventCount := 0 }
  if sensor.type = SENSOR_TYPE_TILT_DETECTOR then
    { sensor with flags := SENSOR_FLAG_WAKE_UP ||| SENSOR_FLAG_ON_CHANGE_MODE }
  else if sensor.type = SENSOR_TYPE_PROXIMITY then { sensor with maxRange := 5 }
  else sensor

@[simp] theorem fixSensorFields_handle (sensor : Sensor) :
    (fixSensorFields sensor).handle = sensor.handle := by
  unfold fixSensorFields
  dsimp only
  split
  · rfl
  · split <;> rfl

/-- A sub-module: the list that its `get_sensors_list` returns, and whether it opens. -/
structure SensorsModule where
  sensors : List Sensor
  opens : Bool
  deriving DecidableEq, Repr

/-- The sub-module as the dispatch of calls sees it. -/
def SensorsModule.sub (m : SensorsModule) : SubModule := ⟨m.sensors.map Sensor.handle, m.opens⟩

/-! ## The list -/

/-- The globals of the wrapper: the maps with the mark that the list is set, and the list. -/
structure Registry where
  maps : HandleMaps
  global_sensors_count : Int
  global_sensors_list : List Sensor

namespace Registry

def init : Registry := ⟨.init, 0, []⟩

/-- The body of the inner loop: one sensor is appended under a new handle. -/
def copySensor (moduleIndex : Int) (acc : HandleMaps × List Sensor) (local_sensor : Sensor) :
    HandleMaps × List Sensor :=
  let global_handle := acc.1.next_global_handle
  (assignGlobalHandle acc.1 ⟨moduleIndex, local_sensor.handle⟩,
    acc.2 ++ [fixSensorFields { local_sensor with handle := global_handle }])

/-- The loop over the modules from index `moduleIndex` on. -/
def copyModules (moduleIndex : Int) : List SensorsModule → HandleMaps × List Sensor →
    HandleMaps × List Sensor
  | [], acc => acc
  | m :: rest, acc => copyModules (moduleIndex + 1) rest (m.sensors.foldl (copySensor moduleIndex) acc)

def lazyInitSensorsList (mods : List SensorsModule) (r : Registry) : Registry :=
  if r.maps.listed then r
  else
    let count := mods.foldl (fun (count : Int) m => count + m.sensors.length) 0
    let filled := copyModules 0 mods (r.maps, [])
    ⟨{ filled.1 with listed := true }, count, filled.2⟩

/-- `module__get_sensors_list`: the count and the list. -/
def getSensorsList (mods : List SensorsModule) (r : Registry) : (Int × List Sensor) × Registry :=
  let r := r.lazyInitSensorsList mods
  ((r.global_sensors_count, r.global_sensors_list), r)

end Registry

/-! ## The maps are inverse -/

/-- The maps are inverse to each other, and no handle from the counter on is in use. -/
structure Paired (maps : HandleMaps) : Prop where
  inverse : ∀ g f, maps.global_to_full g = some f ↔ maps.full_to_global f = some g
  fresh : ∀ g f, maps.global_to_full g = some f → g < maps.next_global_handle

theorem paired_init : Paired .init where
  inverse := by simp [HandleMaps.init]
  fresh := by simp [HandleMaps.init]

theorem assign_full (maps : HandleMaps) (f : FullHandle) :
    (assignGlobalHandle maps f).full_to_global =
      Function.update maps.full_to_global f (some maps.next_global_handle) := rfl

theorem assign_paired {maps : HandleMaps} {new : FullHandle} (h : Paired maps)
    (hnew : maps.full_to_global new = none) : Paired (assignGlobalHandle maps new) := by
  have hunused : ∀ f, maps.global_to_full maps.next_global_handle ≠ some f := by
    intro f hf
    exact absurd (h.fresh _ f hf) (lt_irrefl _)
  constructor
  · intro g f
    rw [assign_global, assign_full]
    by_cases hg : g = maps.next_global_handle
    · subst hg
      rw [Function.update_self]
      by_cases hf : f = new
      · subst hf
        simp
      · rw [Function.update_of_ne hf, ← h.inverse]
        have hne : new ≠ f := fun heq => hf heq.symm
        simp [hunused f, hne]
    · rw [Function.update_of_ne hg, h.inverse]
      by_cases hf : f = new
      · subst hf
        have hne : maps.next_global_handle ≠ g := fun heq => hg heq.symm
        simp [hnew, hne]
      · rw [Function.update_of_ne hf]
  · intro g f hgf
    rw [assign_global] at hgf
    rw [assign_next]
    by_cases hg : g = maps.next_global_handle
    · omega
    · rw [Function.update_of_ne hg] at hgf
      have := h.fresh g f hgf
      omega

/-- Sensors that are all different and all new keep the maps inverse. -/
theorem assign_all_paired (fs : List FullHandle) {maps : HandleMaps} (hnodup : fs.Nodup)
    (h : Paired maps) (hnew : ∀ f ∈ fs, maps.full_to_global f = none) :
    Paired (fs.foldl assignGlobalHandle maps) := by
  induction fs generalizing maps with
  | nil => exact h
  | cons f fs ih =>
    rw [List.nodup_cons] at hnodup
    rw [List.foldl_cons]
    refine ih hnodup.2 (assign_paired h (hnew f (by simp))) ?_
    intro f' hf'
    have hne : f' ≠ f := by
      rintro rfl
      exact hnodup.1 hf'
    rw [assign_full, Function.update_of_ne hne]
    exact hnew f' (by simp [hf'])

/-! ## The sensors in order -/

/-- The sensors of all modules in order, each with its module's index. -/
def located (moduleIndex : Int) : List SensorsModule → List (Int × Sensor)
  | [] => []
  | m :: rest => m.sensors.map (Prod.mk moduleIndex) ++ located (moduleIndex + 1) rest

/-- The full handle of a located sensor. -/
def fullOf (p : Int × Sensor) : FullHandle := ⟨p.1, p.2.handle⟩

theorem located_full (mods : List SensorsModule) (i : Int) :
    (located i mods).map fullOf = sensorsFrom i (mods.map SensorsModule.sub) := by
  induction mods generalizing i with
  | nil => rfl
  | cons m rest ih =>
    rw [located, List.map_append, ih, List.map_cons, sensorsFrom, List.map_map]
    simp only [SensorsModule.sub, List.map_map]
    rfl

theorem mem_sensorsFrom (mods : List SensorsModule) (i : Int) (f : FullHandle) :
    f ∈ sensorsFrom i (mods.map SensorsModule.sub) ↔
      ∃ k m s, mods[k]? = some m ∧ s ∈ m.sensors ∧ f = ⟨i + (k : Nat), s.handle⟩ := by
  induction mods generalizing i with
  | nil => simp [sensorsFrom]
  | cons m rest ih =>
    rw [List.map_cons, sensorsFrom, List.mem_append, ih]
    simp only [SensorsModule.sub, List.map_map, List.mem_map, Function.comp]
    constructor
    · rintro (⟨s, hs, rfl⟩ | ⟨k, m', s, hk, hs, rfl⟩)
      · exact ⟨0, m, s, rfl, hs, by simp⟩
      · refine ⟨k + 1, m', s, hk, hs, ?_⟩
        push_cast
        rw [Int.add_assoc, Int.add_comm 1]
    · rintro ⟨k, m', s, hk, hs, rfl⟩
      cases k with
      | zero =>
        cases hk
        exact .inl ⟨s, hs, by simp⟩
      | succ k =>
        refine .inr ⟨k, m', s, hk, hs, ?_⟩
        push_cast
        rw [Int.add_assoc, Int.add_comm 1]

/-- Local handles that differ within each module make all full handles differ. -/
theorem sensorsFrom_nodup (mods : List SubModule) (i : Int) (h : ∀ m ∈ mods, m.handles.Nodup) :
    (sensorsFrom i mods).Nodup := by
  induction mods generalizing i with
  | nil => exact List.nodup_nil
  | cons m rest ih =>
    rw [sensorsFrom, List.nodup_append]
    refine ⟨?_, ih (i + 1) fun m' hm' => h m' (by simp [hm']), ?_⟩
    · refine List.Pairwise.map _ ?_ (h m (by simp))
      intro a b hne hab
      exact hne (FullHandle.mk.inj hab).2
    · intro a ha b hb
      obtain ⟨l, -, rfl⟩ := List.mem_map.mp ha
      have hlow := sensorsFrom_bounds rest (i + 1) hb
      rintro rfl
      change i + 1 ≤ i at hlow
      omega

namespace Registry

/-! ## The two loops -/

theorem copyModules_eq (mods : List SensorsModule) (i : Int) (acc : HandleMaps × List Sensor) :
    copyModules i mods acc = (located i mods).foldl (fun acc p => copySensor p.1 acc p.2) acc := by
  induction mods generalizing i acc with
  | nil => rfl
  | cons m rest ih => rw [copyModules, located, List.foldl_append, List.foldl_map, ih]

theorem copy_maps (l : List (Int × Sensor)) (acc : HandleMaps × List Sensor) :
    (l.foldl (fun acc p => copySensor p.1 acc p.2) acc).1 =
      (l.map fullOf).foldl assignGlobalHandle acc.1 := by
  induction l generalizing acc with
  | nil => rfl
  | cons p l ih =>
    rw [List.foldl_cons, ih]
    rfl

/-- Sensor `k` of the loop is entry `k` of what it appends, under the `k`-th new handle. -/
theorem copy_list (l : List (Int × Sensor)) (acc : HandleMaps × List Sensor) :
    (l.foldl (fun acc p => copySensor p.1 acc p.2) acc).2 = acc.2 ++ l.mapIdx fun k p =>
      fixSensorFields { p.2 with handle := acc.1.next_global_handle + (k : Nat) } := by
  induction l generalizing acc with
  | nil => simp
  | cons p l ih =>
    rw [List.foldl_cons, ih, List.mapIdx_cons]
    have hnext : (copySensor p.1 acc p.2).1.next_global_handle = acc.1.next_global_handle + 1 := rfl
    have hlist : (copySensor p.1 acc p.2).2 =
        acc.2 ++ [fixSensorFields { p.2 with handle := acc.1.next_global_handle }] := rfl
    rw [hnext, hlist, List.append_assoc, List.singleton_append]
    congr 3
    · simp
    · funext k q
      push_cast
      rw [Int.add_assoc, Int.add_comm 1]

theorem count_eq (mods : List SensorsModule) (i start : Int) :
    mods.foldl (fun (count : Int) m => count + m.sensors.length) start =
      start + (located i mods).length := by
  induction mods generalizing i start with
  | nil => simp [located]
  | cons m rest ih =>
    rw [List.foldl_cons, ih (i + 1), located]
    simp
    omega

variable (mods : List SensorsModule)

/-- The dispatch of calls reads the maps that are filled together with the list. -/
theorem lazyInit_maps (r : Registry) : (r.lazyInitSensorsList mods).maps =
    Sensors.lazyInitSensorsList (mods.map SensorsModule.sub) r.maps := by
  unfold lazyInitSensorsList Sensors.lazyInitSensorsList
  split
  · rfl
  · rw [assignModules_eq, ← located_full, ← copy_maps _ (r.maps, []), ← copyModules_eq]

/-- Later calls change nothing. -/
theorem getSensorsList_again (n : Nat) :
    (fun r => (getSensorsList mods r).2)^[n] (init.lazyInitSensorsList mods) =
      init.lazyInitSensorsList mods := by
  have hfixed : (getSensorsList mods (init.lazyInitSensorsList mods)).2 =
      init.lazyInitSensorsList mods := rfl
  induction n with
  | zero => rfl
  | succ n ih => rw [Function.iterate_succ_apply', ih, hfixed]

theorem init_global_to_full (g : Int) :
    (init.lazyInitSensorsList mods).maps.global_to_full g =
      if 1 ≤ g ∧ g < 1 + (located 0 mods).length then
        ((located 0 mods).map fullOf)[(g - 1).toNat]?
      else none := by
  have hmaps := assign_global_to_full ((located 0 mods).map fullOf) .init g
  rw [← copy_maps _ (HandleMaps.init, []), ← copyModules_eq, List.length_map] at hmaps
  exact hmaps

end Registry

/-! ## The bijection -/

/-- The pair is the module index and the local handle of a sensor. -/
def IsSensor (mods : List SensorsModule) (f : FullHandle) : Prop :=
  ∃ (k : Nat) (m : SensorsModule) (s : Sensor),
    mods[k]? = some m ∧ s ∈ m.sensors ∧ f = ⟨k, s.handle⟩

/-- The handles `1 .. count` and the sensors of the modules correspond one to one, in the
order of the list, and the lookups follow the correspondence. -/
structure HandleBijection (mods : List SensorsModule) (maps : HandleMaps) (count : Int)
    (list : List Sensor) : Prop where
  inverse : ∀ g f, maps.global_to_full g = some f ↔ maps.full_to_global f = some g
  handles : ∀ g, (∃ f, maps.global_to_full g = some f) ↔ 1 ≤ g ∧ g ≤ count
  sensors : ∀ f, (∃ g, maps.full_to_global f = some g) ↔ IsSensor mods f
  length : (list.length : Int) = count
  order : ∀ k : Nat, list[k]? = (located 0 mods)[k]?.map fun p =>
    fixSensorFields { p.2 with handle := k + 1 }
  entry : ∀ (k : Nat) p, (located 0 mods)[k]? = some p → maps.global_to_full (k + 1) = some (fullOf p)
  there_and_back : ∀ g, 1 ≤ g → g ≤ count →
    getGlobalHandle maps.full_to_global ⟨getModuleIndex maps g, getLocalHandle maps g⟩ = g
  back_and_there : ∀ f, IsSensor mods f →
    getModuleIndex maps (getGlobalHandle maps.full_to_global f) = f.moduleIndex ∧
    getLocalHandle maps (getGlobalHandle maps.full_to_global f) = f.localHandle

section
variable {mods : List SensorsModule}

theorem init_paired (hdistinct : ∀ m ∈ mods, (m.sensors.map Sensor.handle).Nodup) :
    Paired (Registry.init.lazyInitSensorsList mods).maps := by
  have hnodup : (sensorsFrom 0 (mods.map SensorsModule.sub)).Nodup := by
    apply sensorsFrom_nodup
    intro m hm
    obtain ⟨m', hm', rfl⟩ := List.mem_map.mp hm
    exact hdistinct m' hm'
  have hall := assign_all_paired _ hnodup paired_init (fun _ _ => rfl)
  rw [← assignModules_eq] at hall
  rw [Registry.lazyInit_maps]
  exact ⟨hall.inverse, hall.fresh⟩

theorem init_handles (g : Int) :
    (∃ f, (Registry.init.lazyInitSensorsList mods).maps.global_to_full g = some f) ↔
      1 ≤ g ∧ g ≤ (located 0 mods).length := by
  rw [Registry.init_global_to_full]
  by_cases hin : 1 ≤ g ∧ g < 1 + ((located 0 mods).length : Int)
  · have hlt : (g - 1).toNat < ((located 0 mods).map fullOf).length := by
      rw [List.length_map]
      omega
    rw [if_pos hin, List.getElem?_eq_getElem hlt]
    exact ⟨fun _ => by omega, fun _ => ⟨_, rfl⟩⟩
  · rw [if_neg hin]
    constructor
    · rintro ⟨f, hf⟩
      cases hf
    · intro h
      omega

theorem init_entry {k : Nat} {p : Int × Sensor} (h : (located 0 mods)[k]? = some p) :
    (Registry.init.lazyInitSensorsList mods).maps.global_to_full (k + 1) = some (fullOf p) := by
  have hlt : k < (located 0 mods).length := (List.getElem?_eq_some_iff.mp h).1
  have hk : ((k : Int) + 1 - 1).toNat = k := by omega
  rw [Registry.init_global_to_full, if_pos (by omega), hk, List.getElem?_map, h]
  rfl

/-- A full handle is in the map exactly when it is a sensor of some module. -/
theorem init_sensors (hdistinct : ∀ m ∈ mods, (m.sensors.map Sensor.handle).Nodup) (f : FullHandle) :
    (∃ g, (Registry.init.lazyInitSensorsList mods).maps.full_to_global f = some g) ↔
      IsSensor mods f := by
  have hmem : IsSensor mods f ↔ f ∈ (located 0 mods).map fullOf := by
    rw [located_full, mem_sensorsFrom]
    simp [IsSensor]
  rw [hmem]
  constructor
  · rintro ⟨g, hg⟩
    rw [← (init_paired hdistinct).inverse, Registry.init_global_to_full] at hg
    split at hg
    · exact List.mem_of_getElem? hg
    · cases hg
  · intro hf
    obtain ⟨k, hk⟩ := List.mem_iff_getElem?.mp hf
    rw [List.getElem?_map, Option.map_eq_some_iff] at hk
    obtain ⟨p, hp, rfl⟩ := hk
    exact ⟨k + 1, ((init_paired hdistinct).inverse _ _).mp (init_entry hp)⟩

theorem init_order (k : Nat) : (Registry.init.lazyInitSensorsList mods).global_sensors_list[k]? =
    (located 0 mods)[k]?.map fun p => fixSensorFields { p.2 with handle := k + 1 } := by
  have hlist := Registry.copy_list (located 0 mods) (HandleMaps.init, [])
  rw [← Registry.copyModules_eq, List.nil_append] at hlist
  change (Registry.copyModules 0 mods (HandleMaps.init, [])).2[k]? = _
  rw [hlist, List.getElem?_mapIdx]
  have hnext : HandleMaps.init.next_global_handle = 1 := rfl
  simp only [hnext, Int.add_comm 1]

theorem init_count : (Registry.init.lazyInitSensorsList mods).global_sensors_count =
    (located 0 mods).length := by
  have hcount := Registry.count_eq mods 0 0
  rw [Int.zero_add] at hcount
  exact hcount

theorem init_length : (Registry.init.lazyInitSensorsList mods).global_sensors_list.length =
    (located 0 mods).length := by
  have hlist := Registry.copy_list (located 0 mods) (HandleMaps.init, [])
  rw [← Registry.copyModules_eq, List.nil_append] at hlist
  change (Registry.copyModules 0 mods (HandleMaps.init, [])).2.length = _
  rw [hlist, List.length_mapIdx]

end

section
variable {maps : HandleMaps} {g : Int} {f : FullHandle}

theorem lookups_of_handle (h : maps.global_to_full g = some f) :
    getModuleIndex maps g = f.moduleIndex ∧ getLocalHandle maps g = f.localHandle := by
  simp [getModuleIndex, getLocalHandle, h]

theorem getGlobalHandle_of_sensor (h : maps.full_to_global f = some g) :
    getGlobalHandle maps.full_to_global f = g := by
  simp [getGlobalHandle, h]

end

theorem handleBijection_init {mods : List SensorsModule}
    (hdistinct : ∀ m ∈ mods, (m.sensors.map Sensor.handle).Nodup) :
    let r := Registry.init.lazyInitSensorsList mods
    HandleBijection mods r.maps r.global_sensors_count r.global_sensors_list := by
  have hpaired := init_paired hdistinct
  refine ⟨hpaired.inverse, ?_, init_sensors hdistinct, ?_, init_order, fun _ _ => init_entry, ?_, ?_⟩
  · rw [init_count]
    exact init_handles
  · rw [init_count, init_length]
  · intro g h1 hn
    rw [init_count] at hn
    obtain ⟨f, hf⟩ := (init_handles g).mpr ⟨h1, hn⟩
    obtain ⟨hmod, hloc⟩ := lookups_of_handle hf
    rw [hmod, hloc]
    exact getGlobalHandle_of_sensor ((hpaired.inverse g f).mp hf)
  · intro f hf
    obtain ⟨g, hg⟩ := (init_sensors hdistinct f).mpr hf
    rw [getGlobalHandle_of_sensor hg]
    exact lookups_of_handle ((hpaired.inverse g f).mpr hg)

/-- **Global handles form a bijection**, after any number of calls.  A handle that is not
registered gives -1 in every lookup; a registered one does so only as the local handle of
a sensor that has -1 for one. -/
theorem handles_bijective (mods : List SensorsModule)
    (hdistinct : ∀ m ∈ mods, (m.sensors.map Sensor.handle).Nodup) (n : Nat) :
    let r := (fun r => (Registry.getSensorsList mods r).2)^[n] (Registry.init.lazyInitSensorsList mods)
    let returned := (Registry.getSensorsList mods r).1
    HandleBijection mods r.maps returned.1 returned.2 ∧
    (∀ g, getModuleIndex r.maps g = -1 ↔ ¬ (1 ≤ g ∧ g ≤ returned.1)) ∧
    (∀ f, getGlobalHandle r.maps.full_to_global f = -1 ↔ ¬ IsSensor mods f) ∧
    (∀ g, getLocalHandle r.maps g = -1 ↔ ¬ (1 ≤ g ∧ g ≤ returned.1) ∨
      ∃ i, r.maps.global_to_full g = some ⟨i, -1⟩) := by
  rw [Registry.getSensorsList_again]
  intro r returned
  have hbij : HandleBijection mods r.maps returned.1 returned.2 := handleBijection_init hdistinct
  refine ⟨hbij, ?_, ?_, ?_⟩
  · intro g
    rw [← hbij.handles g]
    cases hg : r.maps.global_to_full g with
    | none => simp [getModuleIndex, hg]
    | some f =>
      have hsensor := (hbij.sensors f).mp ⟨g, (hbij.inverse g f).mp hg⟩
      obtain ⟨k, m, s, -, -, rfl⟩ := hsensor
      rw [(lookups_of_handle hg).1]
      simp
  · intro f
    rw [← hbij.sensors f]
    cases hf : r.maps.full_to_global f with
    | none => simp [getGlobalHandle, hf]
    | some g =>
      have hpos := ((hbij.handles g).mp ⟨f, (hbij.inverse g f).mpr hf⟩).1
      rw [getGlobalHandle_of_sensor hf]
      simp
      omega
  · intro g
    rw [← hbij.handles g]
    cases hg : r.maps.global_to_full g with
    | none => simp [getLocalHandle, hg]
    | some f =>
      obtain ⟨i, l⟩ := f
      rw [(lookups_of_handle hg).2]
      simp

/-- A sensor with local handle `l`. -/
def plainSensor (l : Int) : Sensor := ⟨l, 1, 0, 0, 0, 0, []⟩

theorem handles_bijective_two_modules :
    let mods : List SensorsModule := [⟨[plainSensor 5, plainSensor 7], true⟩, ⟨[plainSensor 5], true⟩]
    let r := Registry.init.lazyInitSensorsList mods
    r.maps.global_to_full 3 = some ⟨1, 5⟩ ∧
    HandleBijection mods r.maps r.global_sensors_count r.global_sensors_list := by
  refine ⟨by decide, ?_⟩
  exact (handles_bijective [⟨[plainSensor 5, plainSensor 7], true⟩, ⟨[plainSensor 5], true⟩]
    (by decide) 0).1

/-- A sub-module may number a sensor -1: its global handle is 1, and the local handle that
is looked up for it says that there is none. -/
theorem local_handle_minus_one : ¬ ∀ (mods : List SensorsModule),
    (∀ m ∈ mods, (m.sensors.map Sensor.handle).Nodup) → ∀ n g,
    let r := (fun r => (Registry.getSensorsList mods r).2)^[n] (Registry.init.lazyInitSensorsList mods)
    (getLocalHandle r.maps g = -1 ↔ ¬ ∃ f, r.maps.global_to_full g = some f) := by
  intro h
  have hall := h [⟨[plainSensor (-1)], true⟩] (by decide) 0 1
  exact (hall.mp (by decide)) ⟨⟨0, -1⟩, by decide⟩

end MochaHal.Sensors
