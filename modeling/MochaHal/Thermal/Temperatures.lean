import MochaHal.Thermal.Parse
import MochaHal.Lib.OutArray
import Mathlib.Data.List.Infix

/-! `get_temperatures`, asked for the number of its entries and asked to fill a list.  The
number is summed up from the table; the list is filled device by device, each with the room
that is left (`query_fill_agree`). -/

namespace MochaHal.Thermal

open MochaHal.Decimal MochaHal.Spans

def THERMAL_ROOT_DIR : String := "/sys/class/thermal"

def THERMAL_DIR : String := "thermal_zone"

def TRIP_POINT : String := "trip_point"

def THROTTLING_THRESHOLD : String := "passive"

def VR_THROTTLING_THRESHOLD : String := "passive"

def SHUTDOWN_THRESHOLD : String := "critical"

def MAX_LENGTH : Nat := 100

/-! ## Files -/

/-- The files of a device. -/
inductive PathField
  | temperature
  | throttling
  | vr_throttling
  | shutdown
  deriving DecidableEq, Repr

/-- What `%f` makes of a file. -/
inductive Scan (φ : Type)
  | value (x : φ)
  | mismatch
  | eof

/-- What a call of `get_temperatures` finds.  Each file of a device is read once, so that it
may be there for one device and not for another. -/
structure Sysfs (φ : Type) where
  readdir : String → Option (List String)
  word : String → Option String
  stale_name : String
  alloc : Nat → PathField → Bool
  temp : Nat → PathField → String → Option (Scan φ)

/-- `snprintf` into a buffer of `MAX_LENGTH`. -/
def bounded (text : String) : String := String.ofList (text.toList.take (MAX_LENGTH - 1))

/-- `strstr`. -/
def contains (text part : String) : Bool := decide (part.toList <:+: text.toList)

section

variable {φ : Type}

def ThermalDesc.path (d : ThermalDesc φ) : PathField → Option String
  | .temperature => d.temperature_path
  | .throttling => d.throttling_threshold_path
  | .vr_throttling => d.vr_throttling_threshold_path
  | .shutdown => d.shutdown_threshold_path

def ThermalDesc.setPath (d : ThermalDesc φ) (field : PathField) (path : Option String) : ThermalDesc φ :=
  match field with
  | .temperature => { d with temperature_path := path }
  | .throttling => { d with throttling_threshold_path := path }
  | .vr_throttling => { d with vr_throttling_threshold_path := path }
  | .shutdown => { d with shutdown_threshold_path := path }

def ThermalDesc.hasThresholds (d : ThermalDesc φ) : Bool :=
  d.throttling_threshold_path.isSome ∧ d.vr_throttling_threshold_path.isSome ∧ d.shutdown_threshold_path.isSome

variable (sysfs : Sysfs φ)

/-- A copy of a file name. -/
def storePath (i : Nat) (field : PathField) (file_name : String) (d : ThermalDesc φ) : Partial (ThermalDesc φ) :=
  if sysfs.alloc i field then .ok (d.setPath field (some file_name)) else .error (.error (-ENOMEM), d)

/-- `update_threshold_path`. -/
def updateThresholdPath (i : Nat) (field : PathField) (type_cmp type file_name : String) (d : ThermalDesc φ) :
    Partial (ThermalDesc φ) :=
  if (d.path field).isNone ∧ type_cmp = type then storePath sysfs i field file_name d else .ok d

/-- `update_threshold_paths`. -/
def updateThresholdPaths (i : Nat) (trip_point_type file_name : String) (d : ThermalDesc φ) :
    Except (Fault × ThermalDesc φ) (ThermalDesc φ) := do
  let d ← updateThresholdPath sysfs i .throttling THROTTLING_THRESHOLD trip_point_type file_name d
  let d ← updateThresholdPath sysfs i .vr_throttling VR_THROTTLING_THRESHOLD trip_point_type file_name d
  updateThresholdPath sysfs i .shutdown SHUTDOWN_THRESHOLD trip_point_type file_name d

/-- `search_threshold_paths`, with the names in the directory. -/
def searchThresholdPaths (dir_name : String) (i : Nat) :
    List String → ThermalDesc φ → Except (Fault × ThermalDesc φ) (ThermalDesc φ)
  | [], d => .ok d
  | d_name :: rest, d =>
    if contains d_name TRIP_POINT ∧ contains d_name "type" then
      match sysfs.word (bounded (dir_name ++ "/" ++ d_name)) with
      | none => searchThresholdPaths dir_name i rest d
      | some trip_point_type => do
        let stem := String.ofList (d_name.toList.take (d_name.length - "type".length))
        let d ← updateThresholdPaths sysfs i trip_point_type (bounded (dir_name ++ "/" ++ stem ++ "temp")) d
        searchThresholdPaths dir_name i rest d
    else searchThresholdPaths dir_name i rest d

/-- `get_threshold_paths`.  A null pointer is printed as `(null)`. -/
def getThresholdPaths (current_label d_name : String) (i : Nat) (d : ThermalDesc φ) : Partial (ThermalDesc φ) :=
  let threshold_label := bounded ((d.threshold_label.or d.sensor_label).getD "(null)")
  if threshold_label = current_label then
    let dir_name := bounded (THERMAL_ROOT_DIR ++ "/" ++ d_name)
    match sysfs.readdir dir_name with
    | none => .ok d
    | some names => searchThresholdPaths sysfs dir_name i names d
  else .ok d

/-- `get_temperature_path`. -/
def getTemperaturePath (current_label d_name : String) (i : Nat) (d : ThermalDesc φ) : Partial (ThermalDesc φ) :=
  match d.sensor_label with
  | none => .error (.crash, d)
  | some sensor_label =>
    if sensor_label = current_label then
      storePath sysfs i .temperature (bounded (THERMAL_ROOT_DIR ++ "/" ++ d_name ++ "/temp")) d
    else .ok d

/-- A zone and a device. -/
def matchZone (current_label d_name : String) (i : Nat) (d : ThermalDesc φ) : Partial (ThermalDesc φ) :=
  Except.bind (if d.temperature_path.isNone then getTemperaturePath sysfs current_label d_name i d else .ok d) fun d =>
    if d.hasThresholds then .ok d else getThresholdPaths sysfs current_label d_name i d

/-- A zone and the devices from the `i`-th on. -/
def matchDevices (current_label d_name : String) : Nat → List (ThermalDesc φ) → Partial (List (ThermalDesc φ))
  | _, [] => .ok []
  | i, d :: rest =>
    match matchZone sysfs current_label d_name i d with
    | .error (fault, d) => .error (fault, d :: rest)
    | .ok d => onPart (d :: ·) (matchDevices current_label d_name (i + 1) rest)

/-- The names in `/sys/class/thermal`.  A name that is not a zone's goes with the file name
of the zone before. -/
def searchPaths : String → List String → List (ThermalDesc φ) →
    Except (Fault × List (ThermalDesc φ)) (List (ThermalDesc φ))
  | _, [], descs => .ok descs
  | file_name, d_name :: rest, descs =>
    let file_name := if THERMAL_DIR.toList.isPrefixOf d_name.toList then
      bounded (THERMAL_ROOT_DIR ++ "/" ++ d_name ++ "/type") else file_name
    match sysfs.word file_name with
    | none => searchPaths file_name rest descs
    | some current_label => do
      let descs ← matchDevices sysfs current_label d_name 0 descs
      searchPaths file_name rest descs

/-- `get_paths`.  Only the first device is asked whether it has its paths already. -/
def getPaths (descs : List (ThermalDesc φ)) : Partial (List (ThermalDesc φ)) :=
  if (descs.head?.any fun d => d.temperature_path.isSome ∧ d.hasThresholds) then .ok descs
  else
    match sysfs.readdir THERMAL_ROOT_DIR with
    | none => .error (.crash, descs)
    | some names => searchPaths sysfs sysfs.stale_name names descs

end

/-! ## Reading -/

/-- `temperature_t`.  A value that is scaled by a multiplier nobody wrote is `none`. -/
structure Temperature (φ : Type) where
  type : DeviceType
  name : Option String
  current_value : Option φ
  throttling_threshold : Option φ
  shutdown_threshold : Option φ
  vr_throttling_threshold : Option φ
  deriving DecidableEq

/-- What a reader returns, or `none` when it does not, and what it left in the list. -/
structure Filled (α : Type) where
  ret : Option Int
  list : OutArray α

/-- A number that is stored in an `int`. -/
def toInt (n : Int) : Int := n.bmod (2 ^ 32)

section

variable {φ : Type} [Mul φ] (sysfs : Sysfs φ)

/-- `read_temp_file`, with the value instead of the 1 of `fscanf`. -/
def readTempFile (i : Nat) (field : PathField) (path : Option String) (size : Int) : Except Int φ :=
  if size < 1 then .error (-ENOMEM)
  else
    match path with
    | none => .error (-ENOENT)
    | some path =>
      match sysfs.temp i field path with
      | none => .error (-ENOENT)
      | some .mismatch => .error 0
      | some .eof => .error (-1)
      | some (.value temp) => .ok temp

/-- `read_temperature`, where `out` is the slot `idx`. -/
def readTemperature (i : Nat) (d : ThermalDesc φ) (idx : Nat) (size : Int) (list : OutArray (Temperature φ)) :
    Filled (Temperature φ) :=
  match readTempFile sysfs i .temperature d.temperature_path size with
  | .error _ => ⟨some (-ENOENT), list⟩
  | .ok temp =>
    match readTempFile sysfs i .throttling d.throttling_threshold_path size with
    | .error _ => ⟨some (-ENOENT), list⟩
    | .ok throttling =>
      match readTempFile sysfs i .vr_throttling d.vr_throttling_threshold_path size with
      | .error _ => ⟨some (-ENOENT), list⟩
      | .ok vr_throttling =>
        match readTempFile sysfs i .shutdown d.shutdown_threshold_path size with
        | .error _ => ⟨some (-ENOENT), list⟩
        | .ok shutdown =>
          ⟨some 1, list.put idx
            { type := d.type
              name := d.name
              current_value := d.multiplier.map (temp * ·)
              throttling_threshold := d.multiplier.map (throttling * ·)
              shutdown_threshold := d.multiplier.map (shutdown * ·)
              vr_throttling_threshold := d.multiplier.map (vr_throttling * ·) }⟩

/-- The copies of `out` for the cores that are named. -/
def nameCores (d : ThermalDesc φ) (out : Temperature φ) (idx : Nat) :
    List Nat → OutArray (Temperature φ) → Filled (Temperature φ)
  | [], list => ⟨some d.cores, list⟩
  | i :: rest, list =>
    match d.core_names.bind fun core_names => core_names[i]? with
    | none => ⟨none, list⟩
    | some name => nameCores d out idx rest (list.put (idx + i) { out with name := some name })

/-- `read_cluster_temperature`.  The first entry is named in any case. -/
def readClusterTemperature (i : Nat) (d : ThermalDesc φ) (idx : Nat) (size : Int)
    (list : OutArray (Temperature φ)) : Filled (Temperature φ) :=
  if size < d.cores then ⟨some (-ENOMEM), list⟩
  else
    match readTemperature sysfs i d idx size list with
    | ⟨none, list⟩ => ⟨none, list⟩
    | ⟨some ret, list⟩ =>
      if ret < 0 then ⟨some ret, list⟩
      else
        match list idx with
        | none => ⟨none, list⟩
        | some out => nameCores d out idx (0 :: List.range' 1 (d.cores.toNat - 1)) list

/-- The reader of a device. -/
def readDevice (i : Nat) (d : ThermalDesc φ) (idx : Nat) (size : Int) (list : OutArray (Temperature φ)) :
    Filled (Temperature φ) :=
  if d.read_cluster then readClusterTemperature sysfs i d idx size list else readTemperature sysfs i d idx size list

/-- The devices from the `i`-th on, and the number of entries in the end. -/
def readDevices (size : Nat) :
    Nat → List (ThermalDesc φ) → Nat → OutArray (Temperature φ) → Filled (Temperature φ)
  | _, [], idx, list => ⟨some (toInt idx), list⟩
  | i, d :: rest, idx, list =>
    match readDevice sysfs i d idx (toInt ((size : Int) - idx)) list with
    | ⟨none, list⟩ => ⟨none, list⟩
    | ⟨some ret, list⟩ =>
      if ret < 0 then ⟨some ret, list⟩ else readDevices size (i + 1) rest (idx + ret.toNat) list

end

/-! ## The call -/

section

variable {φ : Type}

/-- A sum of two `int`, where it is one. -/
def addInt (a b : Int) : Option Int := if INT_MIN ≤ a + b ∧ a + b ≤ INT_MAX then some (a + b) else none

def ThermalDesc.entryCount (d : ThermalDesc φ) : Int := if d.cores ≠ 0 then d.cores else 1

/-- The sum that answers a null list. -/
def countTemperatures (descs : List (ThermalDesc φ)) : Option Int :=
  descs.foldlM (fun ret d => addInt ret d.entryCount) 0

/-- The entries up to the count.  A table that is not written so far is none. -/
def countedEntries {D : Type} (t : Table D) : Option (List D) :=
  let entries := (t.entries.getD []).take t.count
  if entries.length = t.count then entries.mapM id else none

def storeEntries {D : Type} (t : Table D) (ds : List D) : Table D :=
  { t with entries := t.entries.map fun entries => ds.map some ++ entries.drop t.count }

def freePaths (descs : List (ThermalDesc φ)) : List (ThermalDesc φ) := descs.map (·.setPath .temperature none)

/-- How a call ends. -/
structure Outcome (φ : Type) extends Filled (Temperature φ) where
  globals : Globals φ

variable [Mul φ] (fl : Floats φ) (sysfs : Sysfs φ)

/-- `get_temperatures`, with a null list or with one of a size. -/
def getTemperatures (call : Call) (null : Bool) (size : Nat) (g : Globals φ) : Outcome φ :=
  match configure fl call g with
  | .error (.error code, g) => ⟨⟨some code, .untouched⟩, g⟩
  | .error (.crash, g) => ⟨⟨none, .untouched⟩, g⟩
  | .ok g =>
    match countedEntries g.platform_data with
    | none => ⟨⟨none, .untouched⟩, g⟩
    | some descs =>
      let store (descs : List (ThermalDesc φ)) : Globals φ :=
        { g with platform_data := storeEntries g.platform_data descs }
      if null then ⟨⟨countTemperatures descs, .untouched⟩, g⟩
      else if size = 0 then ⟨⟨some (-ENOMEM), .untouched⟩, g⟩
      else
        match getPaths sysfs descs with
        | .error (.crash, descs) => ⟨⟨none, .untouched⟩, store descs⟩
        | .error (.error code, descs) => ⟨⟨some code, .untouched⟩, store (freePaths descs)⟩
        | .ok descs =>
          match readDevices sysfs size 0 descs 0 .untouched with
          | ⟨none, list⟩ => ⟨⟨none, list⟩, store descs⟩
          | ⟨some ret, list⟩ => ⟨⟨some ret, list⟩, store (if ret < 0 then freePaths descs else descs)⟩

end

/-! ## The paths -/

section

variable {φ : Type}

/-- What a descriptor is without its paths. -/
def ThermalDesc.stripped (d : ThermalDesc φ) : ThermalDesc φ :=
  { d with
    throttling_threshold_path := none
    vr_throttling_threshold_path := none
    shutdown_threshold_path := none
    temperature_path := none }

theorem stripped_setPath (d : ThermalDesc φ) (field : PathField) (path : Option String) :
    (d.setPath field path).stripped = d.stripped := by
  cases field <;> rfl

/-- A step that keeps `f`, unless memory runs out, and then too. -/
def Keeps {σ τ : Type} (f : σ → τ) (s : σ) : Partial σ → Prop
  | .ok s' => f s' = f s
  | .error (.error code, s') => code = -ENOMEM ∧ f s' = f s
  | .error (.crash, _) => True

theorem Keeps.of_eq {σ τ : Type} {f : σ → τ} {s s' : σ} {x : Partial σ} (h : Keeps f s' x) (hs : f s' = f s) :
    Keeps f s x := by
  unfold Keeps at h ⊢
  rwa [hs] at h

theorem Keeps.bind {σ τ : Type} {f : σ → τ} {s : σ} {x : Partial σ} {next : σ → Partial σ} (hx : Keeps f s x)
    (hnext : ∀ s', Keeps f s' (next s')) : Keeps f s (Except.bind x next) := by
  cases x with
  | ok s' => exact (hnext s').of_eq hx
  | error stop => exact hx

variable {sysfs : Sysfs φ}

theorem storePath_keeps (i : Nat) (field : PathField) (file_name : String) (d : ThermalDesc φ) :
    Keeps ThermalDesc.stripped d (storePath sysfs i field file_name d) := by
  unfold storePath
  split
  · exact stripped_setPath d field _
  · exact ⟨rfl, rfl⟩

theorem updateThresholdPath_keeps (i : Nat) (field : PathField) (type_cmp type file_name : String)
    (d : ThermalDesc φ) : Keeps ThermalDesc.stripped d (updateThresholdPath sysfs i field type_cmp type file_name d) := by
  unfold updateThresholdPath
  split
  · exact storePath_keeps i field file_name d
  · rfl

theorem updateThresholdPaths_keeps (i : Nat) (trip_point_type file_name : String) (d : ThermalDesc φ) :
    Keeps ThermalDesc.stripped d (updateThresholdPaths sysfs i trip_point_type file_name d) :=
  (updateThresholdPath_keeps i _ _ _ _ d).bind fun d' =>
    (updateThresholdPath_keeps i _ _ _ _ d').bind fun d'' => updateThresholdPath_keeps i _ _ _ _ d''

theorem searchThresholdPaths_keeps (dir_name : String) (i : Nat) (names : List String) (d : ThermalDesc φ) :
    Keeps ThermalDesc.stripped d (searchThresholdPaths sysfs dir_name i names d) := by
  induction names generalizing d with
  | nil => rfl
  | cons d_name rest ih =>
    unfold searchThresholdPaths
    split
    · split
      · exact ih d
      · exact (updateThresholdPaths_keeps i _ _ d).bind ih
    · exact ih d

theorem getThresholdPaths_keeps (current_label d_name : String) (i : Nat) (d : ThermalDesc φ) :
    Keeps ThermalDesc.stripped d (getThresholdPaths sysfs current_label d_name i d) := by
  unfold getThresholdPaths
  dsimp only
  split
  · split
    · rfl
    · exact searchThresholdPaths_keeps _ i _ d
  · rfl

theorem getTemperaturePath_keeps (current_label d_name : String) (i : Nat) (d : ThermalDesc φ) :
    Keeps ThermalDesc.stripped d (getTemperaturePath sysfs current_label d_name i d) := by
  unfold getTemperaturePath
  split
  · trivial
  · split
    · exact storePath_keeps i .temperature _ d
    · rfl

theorem matchZone_keeps (current_label d_name : String) (i : Nat) (d : ThermalDesc φ) :
    Keeps ThermalDesc.stripped d (matchZone sysfs current_label d_name i d) := by
  refine Keeps.bind ?_ fun d' => ?_
  · split
    · exact getTemperaturePath_keeps current_label d_name i d
    · rfl
  · split
    · rfl
    · exact getThresholdPaths_keeps current_label d_name i d'

theorem matchDevices_keeps (current_label d_name : String) (i : Nat) (descs : List (ThermalDesc φ)) :
    Keeps (List.map ThermalDesc.stripped) descs (matchDevices sysfs current_label d_name i descs) := by
  induction descs generalizing i with
  | nil => rfl
  | cons d rest ih =>
    have hzone := @matchZone_keeps φ sysfs current_label d_name i d
    have hrest := ih (i + 1)
    unfold matchDevices
    cases hd : matchZone sysfs current_label d_name i d with
    | error stop =>
      obtain ⟨fault, d'⟩ := stop
      cases fault with
      | crash => trivial
      | error code =>
        rw [hd] at hzone
        exact ⟨hzone.1, congrArg (· :: _) hzone.2⟩
    | ok d' =>
      rw [hd] at hzone
      dsimp only
      cases hr : matchDevices sysfs current_label d_name (i + 1) rest with
      | error stop =>
        obtain ⟨fault, rest'⟩ := stop
        cases fault with
        | crash => trivial
        | error code =>
          rw [hr] at hrest
          exact ⟨hrest.1, congrArg₂ List.cons hzone hrest.2⟩
      | ok rest' =>
        rw [hr] at hrest
        exact congrArg₂ List.cons hzone hrest

theorem searchPaths_keeps (file_name : String) (names : List String) (descs : List (ThermalDesc φ)) :
    Keeps (List.map ThermalDesc.stripped) descs (searchPaths sysfs file_name names descs) := by
  induction names generalizing file_name descs with
  | nil => rfl
  | cons d_name rest ih =>
    unfold searchPaths
    dsimp only
    generalize (if THERMAL_DIR.toList.isPrefixOf d_name.toList then
      bounded (THERMAL_ROOT_DIR ++ "/" ++ d_name ++ "/type") else file_name) = name
    split
    · exact ih name descs
    · exact (matchDevices_keeps _ d_name 0 descs).bind fun descs' => ih name descs'

/-- Frame: `get_paths` writes nothing but paths. -/
theorem getPaths_keeps (descs : List (ThermalDesc φ)) :
    Keeps (List.map ThermalDesc.stripped) descs (getPaths sysfs descs) := by
  unfold getPaths
  split
  · rfl
  · split
    · trivial
    · exact searchPaths_keeps _ _ descs

end

/-! ## One device -/

section

variable {φ : Type} {sysfs : Sysfs φ} {i idx : Nat} {d : ThermalDesc φ} {room : Int}
  {list : OutArray (Temperature φ)}

/-- A descriptor with the reader of a cluster just in case it has cores, which then are
named. -/
structure ReaderFits (d : ThermalDesc φ) : Prop where
  cores_nonneg : 0 ≤ d.cores
  cluster : d.read_cluster = true ↔ 0 < d.cores
  named : 0 < d.cores → ∃ core_names, d.core_names = some core_names ∧ (core_names.length : Int) = d.cores

theorem readerFits_stripped : ReaderFits d.stripped ↔ ReaderFits d :=
  ⟨fun h => ⟨h.1, h.2, h.3⟩, fun h => ⟨h.1, h.2, h.3⟩⟩

/-- The value in a file of a device, if it can be read. -/
def fileValue (sysfs : Sysfs φ) (i : Nat) (d : ThermalDesc φ) (field : PathField) : Option φ :=
  match (d.path field).bind (sysfs.temp i field) with
  | some (.value x) => some x
  | _ => none

theorem readTempFile_ok {field : PathField} {x : φ} (hroom : 1 ≤ room) (h : fileValue sysfs i d field = some x) :
    readTempFile sysfs i field (d.path field) room = .ok x := by
  unfold fileValue at h
  unfold readTempFile
  rw [if_neg (by omega)]
  cases hpath : d.path field with
  | none =>
    rw [hpath] at h
    cases h
  | some path =>
    rw [hpath, Option.bind_some] at h
    dsimp only
    split at h
    · rename_i hvalue
      rw [hvalue]
      exact congrArg Except.ok (Option.some.inj h)
    · cases h

theorem readTempFile_error {field : PathField} (h : room < 1 ∨ fileValue sysfs i d field = none) :
    ∃ code, readTempFile sysfs i field (d.path field) room = .error code := by
  unfold readTempFile
  split
  case isTrue => exact ⟨_, rfl⟩
  case isFalse hroom =>
    have h := h.resolve_left hroom
    unfold fileValue at h
    cases hpath : d.path field with
    | none => exact ⟨_, rfl⟩
    | some path =>
      rw [hpath, Option.bind_some] at h
      dsimp only
      cases hscan : sysfs.temp i field path with
      | none => exact ⟨_, rfl⟩
      | some scan =>
        cases scan with
        | mismatch => exact ⟨_, rfl⟩
        | eof => exact ⟨_, rfl⟩
        | value x =>
          rw [hscan] at h
          cases h

theorem nameCores_eq {out : Temperature φ} {core_names : List String} (hnames : d.core_names = some core_names)
    (n k : Nat) (hn : k + n = core_names.length) :
    nameCores d out idx (List.range' k n) list =
      ⟨some d.cores, list.place (idx + k) ((core_names.drop k).map fun name => { out with name := some name })⟩ := by
  induction n generalizing k list with
  | zero =>
    rw [List.drop_of_length_le (by omega), List.map_nil, OutArray.place_nil]
    rfl
  | succ n ih =>
    have hk : k < core_names.length := by omega
    have hname : d.core_names.bind (fun core_names => core_names[k]?) = some core_names[k] := by
      rw [hnames, Option.bind_some, List.getElem?_eq_getElem hk]
    rw [List.range'_succ, nameCores, hname]
    dsimp only
    rw [ih (k + 1) (by omega), List.drop_eq_getElem_cons hk, List.map_cons, ← OutArray.place_cons, Nat.add_assoc]

theorem entryCount_pos (hd : ReaderFits d) : 0 < d.entryCount := by
  have := hd.cores_nonneg
  unfold ThermalDesc.entryCount
  split <;> omega

variable [Mul φ]

/-- What the files of a device say, if all of them can be read. -/
def reading (sysfs : Sysfs φ) (i : Nat) (d : ThermalDesc φ) : Option (Temperature φ) := do
  let temp ← fileValue sysfs i d .temperature
  let throttling ← fileValue sysfs i d .throttling
  let vr_throttling ← fileValue sysfs i d .vr_throttling
  let shutdown ← fileValue sysfs i d .shutdown
  return {
    type := d.type
    name := d.name
    current_value := d.multiplier.map (temp * ·)
    throttling_threshold := d.multiplier.map (throttling * ·)
    shutdown_threshold := d.multiplier.map (shutdown * ·)
    vr_throttling_threshold := d.multiplier.map (vr_throttling * ·) }

/-- The entries of a device: one for each core, or one. -/
def deviceEntries (sysfs : Sysfs φ) (i : Nat) (d : ThermalDesc φ) : List (Temperature φ) :=
  match reading sysfs i d with
  | none => []
  | some out =>
    if d.cores = 0 then [out] else (d.core_names.getD []).map fun name => { out with name := some name }

theorem readTemperature_ok {out : Temperature φ} (hroom : 1 ≤ room) (h : reading sysfs i d = some out) :
    readTemperature sysfs i d idx room list = ⟨some 1, list.put idx out⟩ := by
  unfold reading at h
  obtain ⟨temp, htemp, h⟩ := Option.bind_eq_some_iff.mp h
  obtain ⟨throttling, hthrottling, h⟩ := Option.bind_eq_some_iff.mp h
  obtain ⟨vr_throttling, hvr, h⟩ := Option.bind_eq_some_iff.mp h
  obtain ⟨shutdown, hshutdown, h⟩ := Option.bind_eq_some_iff.mp h
  have htemp := readTempFile_ok hroom htemp
  have hthrottling := readTempFile_ok hroom hthrottling
  have hvr := readTempFile_ok hroom hvr
  have hshutdown := readTempFile_ok hroom hshutdown
  unfold ThermalDesc.path at htemp hthrottling hvr hshutdown
  unfold readTemperature
  rw [htemp, hthrottling, hvr, hshutdown, ← Option.some.inj h]

theorem readTemperature_fails (h : room < 1 ∨ reading sysfs i d = none) :
    readTemperature sysfs i d idx room list = ⟨some (-ENOENT), list⟩ := by
  have hfail : ∃ field, room < 1 ∨ fileValue sysfs i d field = none := by
    rcases h with h | h
    · exact ⟨.temperature, .inl h⟩
    · by_contra hall
      obtain ⟨temp, htemp⟩ := Option.ne_none_iff_exists'.mp fun h => hall ⟨.temperature, .inr h⟩
      obtain ⟨throttling, hthrottling⟩ := Option.ne_none_iff_exists'.mp fun h => hall ⟨.throttling, .inr h⟩
      obtain ⟨vr_throttling, hvr⟩ := Option.ne_none_iff_exists'.mp fun h => hall ⟨.vr_throttling, .inr h⟩
      obtain ⟨shutdown, hshutdown⟩ := Option.ne_none_iff_exists'.mp fun h => hall ⟨.shutdown, .inr h⟩
      unfold reading at h
      rw [htemp, hthrottling, hvr, hshutdown] at h
      cases h
  obtain ⟨field, hfield⟩ := hfail
  obtain ⟨code, herror⟩ := readTempFile_error hfield
  unfold readTemperature
  split
  · rfl
  · rename_i htemp
    split
    · rfl
    · rename_i hthrottling
      split
      · rfl
      · rename_i hvr
        split
        · rfl
        · rename_i hshutdown
          cases field with
          | temperature => cases htemp.symm.trans herror
          | throttling => cases hthrottling.symm.trans herror
          | vr_throttling => cases hvr.symm.trans herror
          | shutdown => cases hshutdown.symm.trans herror

theorem length_deviceEntries (hd : ReaderFits d) {out : Temperature φ} (h : reading sysfs i d = some out) :
    ((deviceEntries sysfs i d).length : Int) = d.entryCount := by
  unfold deviceEntries ThermalDesc.entryCount
  rw [h]
  dsimp only
  by_cases hcores : d.cores = 0
  · rw [if_pos hcores, if_neg (fun hne => hne hcores)]
    rfl
  · obtain ⟨core_names, hnames, hlength⟩ := hd.named (by have := hd.cores_nonneg; omega)
    rw [if_neg hcores, if_pos hcores, hnames, List.length_map]
    exact hlength

theorem readDevice_ok (hd : ReaderFits d) {out : Temperature φ} (h : reading sysfs i d = some out)
    (hroom : d.entryCount ≤ room) :
    readDevice sysfs i d idx room list = ⟨some d.entryCount, list.place idx (deviceEntries sysfs i d)⟩ := by
  have hread := @readTemperature_ok φ sysfs i idx d room list _ out
    (Int.le_trans (entryCount_pos hd) hroom) h
  unfold readDevice
  by_cases hcores : 0 < d.cores
  · obtain ⟨core_names, hnames, hlength⟩ := hd.named hcores
    have hcount : d.entryCount = d.cores := if_pos (by omega)
    have hentries : deviceEntries sysfs i d = core_names.map fun name => { out with name := some name } := by
      unfold deviceEntries
      rw [h, hnames]
      exact if_neg (by omega)
    have hrange : 0 :: List.range' 1 (d.cores.toNat - 1) = List.range' 0 core_names.length := by
      rw [show core_names.length = d.cores.toNat - 1 + 1 by omega, List.range'_succ]
    rw [if_pos (hd.cluster.mpr hcores)]
    unfold readClusterTemperature
    rw [if_neg (by omega), hread]
    dsimp only
    rw [if_neg (by decide), show list.put idx out idx = some out from if_pos rfl]
    dsimp only
    rw [hrange, nameCores_eq hnames core_names.length 0 (Nat.zero_add _), List.drop_zero, Nat.add_zero, hentries,
      hcount]
    rw [OutArray.put_place out (by rw [List.length_map]; omega)]
  · have hzero : d.cores = 0 := by
      have := hd.cores_nonneg
      omega
    have hentries : deviceEntries sysfs i d = [out] := by
      unfold deviceEntries
      rw [h]
      exact if_pos hzero
    have hcount : d.entryCount = 1 := if_neg fun hne => hne hzero
    rw [if_neg (fun hcluster => hcores (hd.cluster.mp hcluster)), hread, hentries, hcount, OutArray.put_eq_place]

theorem readDevice_fails (hd : ReaderFits d) (h : room < d.entryCount ∨ reading sysfs i d = none) :
    ∃ code, code < 0 ∧ readDevice sysfs i d idx room list = ⟨some code, list⟩ := by
  unfold readDevice
  by_cases hcores : 0 < d.cores
  · have hcount : d.entryCount = d.cores := if_pos (by omega)
    rw [if_pos (hd.cluster.mpr hcores)]
    unfold readClusterTemperature
    by_cases hroom : room < d.cores
    · rw [if_pos hroom]
      exact ⟨_, by decide, rfl⟩
    · rw [if_neg hroom, readTemperature_fails (.inr (h.resolve_left (by omega)))]
      exact ⟨_, by decide, rfl⟩
  · have hcount : d.entryCount = 1 := if_neg (by have := hd.cores_nonneg; omega)
    rw [if_neg (fun hcluster => hcores (hd.cluster.mp hcluster)), readTemperature_fails (h.imp (by omega) id)]
    exact ⟨_, by decide, rfl⟩

end

/-! ## The table -/

section

variable {φ : Type}

def entryTotal (descs : List (ThermalDesc φ)) : Int := (descs.map ThermalDesc.entryCount).sum

theorem toInt_eq {n : Int} (h : 0 ≤ n) (hmax : n ≤ INT_MAX) : toInt n = n := by
  unfold INT_MAX at hmax
  unfold toInt
  refine Int.bmod_eq_of_le ?_ ?_ <;> omega

theorem countTemperatures_go {descs : List (ThermalDesc φ)} {ret count : Int}
    (h : descs.foldlM (fun ret d => addInt ret d.entryCount) ret = some count) : count = ret + entryTotal descs := by
  induction descs generalizing ret with
  | nil => exact (Option.some.inj h).symm.trans (Int.add_zero ret).symm
  | cons d rest ih =>
    rw [List.foldlM_cons] at h
    obtain ⟨ret', hadd, h⟩ := Option.bind_eq_some_iff.mp h
    unfold addInt at hadd
    split at hadd
    · rw [ih h, ← Option.some.inj hadd]
      unfold entryTotal
      rw [List.map_cons, List.sum_cons, Int.add_assoc]
    · cases hadd

theorem countTemperatures_eq {descs : List (ThermalDesc φ)} {count : Int} (h : countTemperatures descs = some count) :
    count = entryTotal descs := (countTemperatures_go h).trans (Int.zero_add _)

theorem entryTotal_stripped (descs : List (ThermalDesc φ)) :
    entryTotal (descs.map ThermalDesc.stripped) = entryTotal descs := by
  unfold entryTotal
  rw [List.map_map]
  rfl

theorem entryTotal_nonneg {descs : List (ThermalDesc φ)} (h : ∀ d ∈ descs, ReaderFits d) : 0 ≤ entryTotal descs := by
  induction descs with
  | nil => exact Int.le_refl 0
  | cons d rest ih =>
    obtain ⟨hd, hrest⟩ := List.forall_mem_cons.mp h
    exact Int.add_nonneg (Int.le_of_lt (entryCount_pos hd)) (ih hrest)

theorem entryTotal_of_paths {descs descs' : List (ThermalDesc φ)}
    (h : descs'.map ThermalDesc.stripped = descs.map ThermalDesc.stripped) :
    entryTotal descs' = entryTotal descs := by
  rw [← entryTotal_stripped descs', h, entryTotal_stripped]

theorem readerFits_of_paths {descs descs' : List (ThermalDesc φ)}
    (h : descs'.map ThermalDesc.stripped = descs.map ThermalDesc.stripped)
    (hfits : ∀ d ∈ descs, ReaderFits d) : ∀ d ∈ descs', ReaderFits d := by
  intro d' hd'
  have hmem : d'.stripped ∈ descs.map ThermalDesc.stripped := h ▸ List.mem_map_of_mem hd'
  obtain ⟨d, hd, hsame⟩ := List.mem_map.mp hmem
  rw [← readerFits_stripped, ← hsame, readerFits_stripped]
  exact hfits d hd

variable [Mul φ] {sysfs : Sysfs φ} {size : Nat}

/-- The entries of the devices from the `i`-th on, those of a device behind those of the
devices before it. -/
def tableEntries (sysfs : Sysfs φ) (i : Nat) (descs : List (ThermalDesc φ)) : List (Temperature φ) :=
  (descs.zipIdx i).flatMap fun p => deviceEntries sysfs p.2 p.1

/-- All files of the devices from the `i`-th on can be read. -/
def AllReadable (sysfs : Sysfs φ) (i : Nat) (descs : List (ThermalDesc φ)) : Prop :=
  ∀ p ∈ descs.zipIdx i, (reading sysfs p.2 p.1).isSome

theorem tableEntries_cons (i : Nat) (d : ThermalDesc φ) (rest : List (ThermalDesc φ)) :
    tableEntries sysfs i (d :: rest) = deviceEntries sysfs i d ++ tableEntries sysfs (i + 1) rest := by
  unfold tableEntries
  rw [List.zipIdx_cons, List.flatMap_cons]

theorem allReadable_cons {i : Nat} {d : ThermalDesc φ} {rest : List (ThermalDesc φ)} :
    AllReadable sysfs i (d :: rest) ↔ (reading sysfs i d).isSome ∧ AllReadable sysfs (i + 1) rest := by
  unfold AllReadable
  rw [List.zipIdx_cons]
  exact List.forall_mem_cons

theorem length_tableEntries {i : Nat} {descs : List (ThermalDesc φ)} (hfits : ∀ d ∈ descs, ReaderFits d)
    (hall : AllReadable sysfs i descs) : ((tableEntries sysfs i descs).length : Int) = entryTotal descs := by
  induction descs generalizing i with
  | nil => rfl
  | cons d rest ih =>
    obtain ⟨hd, hrest⟩ := List.forall_mem_cons.mp hfits
    obtain ⟨hsome, hall⟩ := allReadable_cons.mp hall
    obtain ⟨out, hout⟩ := Option.isSome_iff_exists.mp hsome
    rw [tableEntries_cons, List.length_append, Nat.cast_add, length_deviceEntries hd hout, ih hrest hall]
    exact List.sum_cons.symm

/-- How the loop ends: with all entries, or with a negative number and nothing behind the
end of the list. -/
def FilledTo (sysfs : Sysfs φ) (size i : Nat) (descs : List (ThermalDesc φ)) (idx : Nat)
    (list : OutArray (Temperature φ)) (r : Filled (Temperature φ)) : Prop :=
  (AllReadable sysfs i descs ∧ idx + entryTotal descs ≤ size ∧
      r = ⟨some (idx + entryTotal descs), list.place idx (tableEntries sysfs i descs)⟩) ∨
    (¬ (AllReadable sysfs i descs ∧ idx + entryTotal descs ≤ size) ∧ (∃ code, code < 0 ∧ r.ret = some code) ∧
      ∀ k, size ≤ k → r.list k = list k)

theorem readDevices_filledTo {descs : List (ThermalDesc φ)} (hfits : ∀ d ∈ descs, ReaderFits d)
    (hsize : (size : Int) ≤ INT_MAX) {i idx : Nat} {list : OutArray (Temperature φ)} (hidx : idx ≤ size) :
    FilledTo sysfs size i descs idx list (readDevices sysfs size i descs idx list) := by
  induction descs generalizing i idx list with
  | nil =>
    refine .inl ⟨fun p hp => absurd hp List.not_mem_nil, ?_, ?_⟩
    · show (idx : Int) + 0 ≤ size
      omega
    · show Filled.mk (some (toInt idx)) list = ⟨some ((idx : Int) + 0), list.place idx []⟩
      rw [toInt_eq (by omega) (by omega), OutArray.place_nil, Int.add_zero]
  | cons d rest ih =>
    obtain ⟨hd, hrest⟩ := List.forall_mem_cons.mp hfits
    have hpos := entryCount_pos hd
    have htotal : entryTotal (d :: rest) = d.entryCount + entryTotal rest := List.sum_cons
    have hnonneg := entryTotal_nonneg hrest
    have hroom : toInt ((size : Int) - idx) = size - idx := toInt_eq (by omega) (by omega)
    unfold readDevices
    rw [hroom]
    by_cases hfail : (size : Int) - idx < d.entryCount ∨ reading sysfs i d = none
    · obtain ⟨code, hcode, hstep⟩ := @readDevice_fails φ sysfs i idx d _ list _ hd hfail
      rw [hstep]
      dsimp only
      rw [if_pos hcode]
      refine .inr ⟨?_, ⟨code, hcode, rfl⟩, fun k _ => rfl⟩
      rintro ⟨hread, hfit⟩
      rcases hfail with hfail | hfail
      · omega
      · rw [allReadable_cons, hfail] at hread
        cases hread.1
    · obtain ⟨hroom, hread⟩ := not_or.mp hfail
      obtain ⟨out, hout⟩ := Option.ne_none_iff_exists'.mp hread
      have hlength := length_deviceEntries hd hout
      have hnext : idx + (deviceEntries sysfs i d).length ≤ size := by omega
      rw [readDevice_ok hd hout (Int.not_lt.mp hroom)]
      dsimp only
      rw [if_neg (by omega), show d.entryCount.toNat = (deviceEntries sysfs i d).length by omega]
      have hiff : AllReadable sysfs i (d :: rest) ↔ AllReadable sysfs (i + 1) rest := by
        rw [allReadable_cons, hout]
        exact and_iff_right rfl
      rcases @ih hrest (i + 1) _ (list.place idx (deviceEntries sysfs i d)) hnext with
        ⟨hall, hfit, hr⟩ | ⟨hnot, hcode, hframe⟩
      · refine .inl ⟨hiff.mpr hall, by omega, ?_⟩
        rw [hr, OutArray.place_place, tableEntries_cons]
        congr 2
        omega
      · refine .inr ⟨?_, hcode, fun k hk => ?_⟩
        · rintro ⟨hall, hfit⟩
          exact hnot ⟨hiff.mp hall, by omega⟩
        · rw [hframe k hk]
          exact OutArray.place_behind (by omega)

/-! ## The call and its list -/

variable {fl : Floats φ} {call : Call} {g g' : Globals φ} {descs : List (ThermalDesc φ)}

theorem getTemperatures_null (hconf : configure fl call g = .ok g')
    (htable : countedEntries g'.platform_data = some descs) :
    (getTemperatures fl sysfs call true size g).ret = countTemperatures descs := by
  unfold getTemperatures
  rw [hconf]
  dsimp only
  rw [htable]
  rfl

/-- The list after the call, by what `get_paths` found. -/
theorem getTemperatures_fill (hconf : configure fl call g = .ok g')
    (htable : countedEntries g'.platform_data = some descs) (hsize : 0 < size) :
    (getTemperatures fl sysfs call false size g).toFilled =
      match getPaths sysfs descs with
      | .error (.crash, _) => ⟨none, .untouched⟩
      | .error (.error code, _) => ⟨some code, .untouched⟩
      | .ok descs => readDevices sysfs size 0 descs 0 .untouched := by
  unfold getTemperatures
  rw [hconf]
  dsimp only
  rw [htable]
  dsimp only
  rw [if_neg Bool.false_ne_true, if_neg (Nat.ne_of_gt hsize)]
  cases getPaths sysfs descs with
  | error stop =>
    obtain ⟨fault, descs'⟩ := stop
    cases fault with
    | crash => rfl
    | error code => rfl
  | ok descs' =>
    dsimp only
    obtain ⟨ret, list⟩ := readDevices sysfs size 0 descs' 0 .untouched
    cases ret with
    | none => rfl
    | some ret => rfl

theorem getTemperatures_no_room (hconf : configure fl call g = .ok g')
    (htable : countedEntries g'.platform_data = some descs) :
    (getTemperatures fl sysfs call false 0 g).toFilled = ⟨some (-ENOMEM), .untouched⟩ := by
  unfold getTemperatures
  rw [hconf]
  dsimp only
  rw [htable]
  rfl

/-- A list of a size that is not 0 is filled as it was announced, or with nothing behind
its end.  A list of size 0 is refused. -/
theorem query_fill_agree (fl : Floats φ) (sysfs : Sysfs φ) (call : Call) (g g' : Globals φ)
    (descs : List (ThermalDesc φ)) (size : Nat) (hconf : configure fl call g = .ok g')
    (htable : countedEntries g'.platform_data = some descs) (hfits : ∀ d ∈ descs, ReaderFits d)
    (hsize : (size : Int) ≤ INT_MAX) :
    (∀ k, size ≤ k → (getTemperatures fl sysfs call false size g).list k = none) ∧
      (size = 0 → (getTemperatures fl sysfs call false size g).ret = some (-ENOMEM)) ∧
      ∀ count, (getTemperatures fl sysfs call true size g).ret = some count →
        (0 < size → count ≤ size → ∀ descs', getPaths sysfs descs = .ok descs' → AllReadable sysfs 0 descs' →
          (getTemperatures fl sysfs call false size g).ret = some count ∧
            ∀ k, (getTemperatures fl sysfs call false size g).list k = (tableEntries sysfs 0 descs')[k]?) ∧
        (size < count → (∀ descs', getPaths sysfs descs ≠ .error (.crash, descs')) →
          ∃ code, code < 0 ∧ (getTemperatures fl sysfs call false size g).ret = some code) := by
  rcases Nat.eq_zero_or_pos size with rfl | hpos
  · have hfill := @getTemperatures_no_room φ _ sysfs fl call g g' descs hconf htable
    rw [hfill]
    refine ⟨fun k _ => rfl, fun _ => rfl, fun count _ => ?_⟩
    exact ⟨fun h => absurd h (Nat.lt_irrefl 0), fun _ _ => ⟨_, by decide, rfl⟩⟩
  · have hpaths := @getPaths_keeps φ sysfs descs
    rw [getTemperatures_fill hconf htable hpos, getTemperatures_null hconf htable]
    cases hfound : getPaths sysfs descs with
    | error stop =>
      rw [hfound] at hpaths
      obtain ⟨fault, descs'⟩ := stop
      refine ⟨fun k _ => by cases fault <;> rfl, fun h => absurd h hpos.ne', fun count _ => ?_⟩
      refine ⟨fun _ _ descs'' h => (by cases h), fun _ hcomes => ?_⟩
      cases fault with
      | crash => exact absurd rfl (hcomes descs')
      | error code => exact ⟨code, by rw [hpaths.1]; decide, rfl⟩
    | ok descs' =>
      rw [hfound] at hpaths
      have hfilled := @readDevices_filledTo φ _ sysfs size descs' (readerFits_of_paths hpaths hfits) hsize 0 0
        .untouched (Nat.zero_le size)
      dsimp only
      rw [FilledTo, entryTotal_of_paths hpaths, Nat.cast_zero, Int.zero_add] at hfilled
      rcases hfilled with ⟨hall, hfit, hr⟩ | ⟨hnot, hcode, hframe⟩
      · rw [hr]
        dsimp only
        have hlist := OutArray.place_untouched (tableEntries sysfs 0 descs')
        refine ⟨fun k hk => ?_, fun h => absurd h hpos.ne', fun count hcount =>
          ⟨fun _ _ _ hok _ => ?_, fun hless _ => ?_⟩⟩
        · have hlength := length_tableEntries (readerFits_of_paths hpaths hfits) hall
          rw [entryTotal_of_paths hpaths] at hlength
          rw [hlist, List.getElem?_eq_none (by omega)]
        · obtain rfl := Except.ok.inj hok
          exact ⟨congrArg some (countTemperatures_eq hcount).symm, hlist⟩
        · have := countTemperatures_eq hcount
          omega
      · refine ⟨hframe, fun h => absurd h hpos.ne', fun count hcount => ⟨fun _ hfit _ hok hall => ?_, fun _ _ => hcode⟩⟩
        obtain rfl := Except.ok.inj hok
        have := countTemperatures_eq hcount
        exact absurd ⟨hall, by omega⟩ hnot

end

/-! ## Two calls -/

section

/-- A cluster of two cores, with its paths. -/
def clusterDesc : ThermalDesc Int where
  name := some "CPU"
  type := .cpu
  sensor_label := some "CPU-therm"
  throttling_threshold := 0
  vr_throttling_threshold := 0
  shutdown_threshold := 0
  threshold_label := none
  throttling_threshold_path := some "/sys/class/thermal/thermal_zone0/trip_point_0_temp"
  vr_throttling_threshold_path := some "/sys/class/thermal/thermal_zone0/trip_point_0_temp"
  shutdown_threshold_path := some "/sys/class/thermal/thermal_zone0/trip_point_1_temp"
  multiplier := some 1
  cores := 2
  core_names := some ["CPU0", "CPU1"]
  read_cluster := true
  temperature_path := some "/sys/class/thermal/thermal_zone0/temp"

theorem clusterDesc_fits (path : Option String) : ReaderFits (clusterDesc.setPath .temperature path) :=
  ⟨show (0 : Int) ≤ 2 by decide, show true = true ↔ (0 : Int) < 2 by decide, fun _ => ⟨["CPU0", "CPU1"], rfl, rfl⟩⟩

/-- Globals that are configured, with a table. -/
def globalsOf (descs : List (ThermalDesc Int)) : Globals Int :=
  ⟨⟨some (descs.map some), descs.length, false⟩, .empty, none⟩

def intFloats : Floats Int := ⟨fun text => atoi text.toList, 0⟩

def anyCall : Call := ⟨some "mocha", fun _ => none, fun _ => ⟨true, fun _ => true, true, fun _ => true, fun _ => true⟩⟩

/-- Every file reads 45, and `/sys/class/thermal` is there or not. -/
def warmSysfs (dir : Option (List String)) : Sysfs Int :=
  ⟨fun _ => dir, fun _ => none, "", fun _ _ => true, fun _ _ _ => some (.value 45)⟩

theorem query_fill_agree_of_cluster :
    (getTemperatures intFloats (warmSysfs none) anyCall false 2 (globalsOf [clusterDesc])).ret = some 2 ∧
      (getTemperatures intFloats (warmSysfs none) anyCall false 1 (globalsOf [clusterDesc])).ret.any (· < 0) := by
  have hfits : ∀ d ∈ [clusterDesc], ReaderFits d := fun d hd => by
    rw [List.mem_singleton.mp hd]
    exact clusterDesc_fits clusterDesc.temperature_path
  refine ⟨(((query_fill_agree intFloats (warmSysfs none) anyCall (globalsOf [clusterDesc]) (globalsOf [clusterDesc])
    [clusterDesc] 2 rfl rfl hfits (by decide)).2.2 2 (by decide)).1 (by decide) (by decide) [clusterDesc] rfl ?_).1, ?_⟩
  · intro p hp
    rw [List.mem_singleton.mp hp]
    rfl
  · obtain ⟨code, hcode, hret⟩ := ((query_fill_agree intFloats (warmSysfs none) anyCall (globalsOf [clusterDesc])
      (globalsOf [clusterDesc]) [clusterDesc] 1 rfl rfl hfits (by decide)).2.2 2 (by decide)).2 (by decide)
      fun descs' h => by cases h
    rw [hret]
    exact decide_eq_true hcode

/-- An empty table announces 0 entries and refuses a list of size 0; and where the search
for the paths breaks off, nothing is returned. -/
theorem query_without_room :
    (¬ ∀ (fl : Floats Int) (sysfs : Sysfs Int) (call : Call) (g g' : Globals Int) (descs descs' : List (ThermalDesc Int))
        (size : Nat) (count : Int), configure fl call g = .ok g' → countedEntries g'.platform_data = some descs →
        (∀ d ∈ descs, ReaderFits d) → (size : Int) ≤ INT_MAX →
        (getTemperatures fl sysfs call true size g).ret = some count → count ≤ size →
        getPaths sysfs descs = .ok descs' → AllReadable sysfs 0 descs' →
        (getTemperatures fl sysfs call false size g).ret = some count) ∧
      ¬ ∀ (fl : Floats Int) (sysfs : Sysfs Int) (call : Call) (g g' : Globals Int) (descs : List (ThermalDesc Int))
        (size : Nat) (count : Int), configure fl call g = .ok g' → countedEntries g'.platform_data = some descs →
        (∀ d ∈ descs, ReaderFits d) → (size : Int) ≤ INT_MAX →
        (getTemperatures fl sysfs call true size g).ret = some count → size < count →
        ∃ code, code < 0 ∧ (getTemperatures fl sysfs call false size g).ret = some code := by
  constructor
  · intro h
    have hclaimed := h intFloats (warmSysfs (some [])) anyCall (globalsOf []) (globalsOf []) [] [] 0 0 rfl rfl
      (fun d hd => absurd hd List.not_mem_nil) (by decide) (by decide) (by decide) rfl
      (fun p hp => absurd hp List.not_mem_nil)
    revert hclaimed
    decide
  · intro h
    obtain ⟨code, -, hret⟩ := h intFloats (warmSysfs none) anyCall (globalsOf [clusterDesc.setPath .temperature none])
      (globalsOf [clusterDesc.setPath .temperature none]) [clusterDesc.setPath .temperature none] 1 2 rfl rfl
      (fun d hd => List.mem_singleton.mp hd ▸ clusterDesc_fits none) (by decide) (by decide) (by decide)
    cases hret

end

end MochaHal.Thermal
