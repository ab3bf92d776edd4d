import MochaHal.Lib.Decimal
import MochaHal.Lib.Spans
import MochaHal.Lib.Reach

/-! The reader of the thermal configuration, and how the entry points use it.  The file is
read while three global pointers are null; a parse that fails may leave one of them set, and
then the next call takes what is there (`failed_parse_from_scratch`). -/

namespace MochaHal.Thermal

open MochaHal.Decimal MochaHal.Spans MochaHal.Reach

/-! ## Data -/

def ENOENT : Int := 2

def EBADF : Int := 9

def ENOMEM : Int := 12

def EINVAL : Int := 22

/-- What the parser needs of floating point. -/
structure Floats (φ : Type) where
  atof : String → φ
  UNKNOWN_TEMPERATURE : φ

inductive DeviceType
  | unknown
  | cpu
  | gpu
  | battery
  | skin
  deriving DecidableEq, Repr

inductive CoolingType
  | fan_rpm
  deriving DecidableEq, Repr

/-- `thermal_desc_t`.  A pointer that is null is `none`, and so is a multiplier that was
never written.  `read_cluster` says that `read_temperature` is `read_cluster_temperature`
and not null. -/
structure ThermalDesc (φ : Type) where
  name : Option String
  type : DeviceType
  sensor_label : Option String
  throttling_threshold : φ
  vr_throttling_threshold : φ
  shutdown_threshold : φ
  threshold_label : Option String
  throttling_threshold_path : Option String
  vr_throttling_threshold_path : Option String
  shutdown_threshold_path : Option String
  multiplier : Option φ
  cores : Int
  core_names : Option (List String)
  read_cluster : Bool
  temperature_path : Option String
  deriving DecidableEq

/-- `cooling_desc_t`; a type that was never written is `none`. -/
structure CoolingDesc where
  name : Option String
  type : Option CoolingType
  cooling_path : Option String
  deriving DecidableEq

/-- `platform_data`, `cooling_data`, their counts and flags, and `num_cpus_total`. -/
structure Globals (φ : Type) where
  platform_data : Table (ThermalDesc φ)
  cooling_data : Table CoolingDesc
  num_cpus_total : Option Int
  deriving DecidableEq

def Globals.initial {φ : Type} : Globals φ := ⟨.empty, .empty, none⟩

/-! ## Nodes -/

inductive NodeType
  | element
  | end_element
  | text
  | significant_whitespace
  | other
  deriving DecidableEq, Repr

/-- A node of `xmlTextReader`.  A name that is null reads `--`. -/
structure Node where
  type : NodeType
  name : String
  attribs : List (String × String)
  deriving DecidableEq, Repr

/-- `xmlTextReaderGetAttribute`. -/
def Node.getAttribute (node : Node) (name : String) : Option String := node.attribs.lookup name

/-- The element, or the end of the element, of a name. -/
def Node.isElement (node : Node) (name : String) : Bool := node.type = .element ∧ node.name = name

def Node.isEnd (node : Node) (name : String) : Bool := node.type = .end_element ∧ node.name = name

/-- What a file holds, up to its end or, when it is not complete, to an error. -/
structure XmlDoc where
  nodes : List Node
  complete : Bool
  deriving DecidableEq

/-- Whether memory is left while a node is read: for a table, the copy of an attribute,
the number of processors, an array of core names and each of the names. -/
structure Alloc where
  table : Bool
  copy : String → Bool
  cpus : Bool
  names : Int → Bool
  core_name : Nat → Bool

inductive Fault
  | error (code : Int)
  | crash
  deriving DecidableEq, Repr

/-- A step that is broken off leaves what it did so far. -/
abbrev Partial (σ : Type) : Type := Except (Fault × σ) σ

/-- A step on a part of the state. -/
def onPart {σ τ : Type} (put : τ → σ) : Partial τ → Partial σ
  | .ok t => .ok (put t)
  | .error (fault, t) => .error (fault, put t)

/-! ## Properties -/

section

variable {φ : Type} (fl : Floats φ) (alloc : Alloc) (node : Node)

/-- The first value of an attribute is copied. -/
def copyAttribute {D : Type} (name : String) (get : D → Option String) (put : D → String → D) (d : D) :
    Partial D :=
  match get d, node.getAttribute name with
  | none, some c => if alloc.copy name then .ok (put d c) else .error (.error (-ENOMEM), d)
  | _, _ => .ok d

def coolingType (d : CoolingDesc) : Partial CoolingDesc :=
  match node.getAttribute "type" with
  | none => .ok d
  | some c => if c = "FAN_RPM" then .ok { d with type := some .fan_rpm } else .error (.error (-ENOENT), d)

/-- `parse_cool_prop`. -/
def parseCoolProp (d : CoolingDesc) : Except (Fault × CoolingDesc) CoolingDesc := do
  let d ← copyAttribute alloc node "name" CoolingDesc.name (fun d c => { d with name := some c }) d
  let d ← coolingType node d
  copyAttribute alloc node "cooling-path" CoolingDesc.cooling_path (fun d c => { d with cooling_path := some c }) d

def deviceTypes : List (String × DeviceType) :=
  [("DEVICE_TEMPERATURE_CPU", .cpu), ("DEVICE_TEMPERATURE_GPU", .gpu), ("DEVICE_TEMPERATURE_BATTERY", .battery),
    ("DEVICE_TEMPERATURE_SKIN", .skin)]

def coreNames (name : String) (x : Int) : List String := (List.range x.toNat).map fun i => name ++ toString i

/-- The `cores` of a property.  The array is not checked before it is filled, and the name
of the device is taken as it is then. -/
def parseCores (d : ThermalDesc φ) : Partial (ThermalDesc φ) :=
  match node.getAttribute "cores" with
  | none => .ok d
  | some c =>
    let x := atoi c.toList
    let d := if x > 0 then { d with cores := x, read_cluster := true } else d
    if x ≤ 0 then .ok { d with core_names := if alloc.names x then some [] else none }
    else
      match d.name with
      | none => .error (.crash, d)
      | some name =>
        if alloc.names x ∧ ∀ i < x.toNat, alloc.core_name i then .ok { d with core_names := some (coreNames name x) }
        else .error (.crash, d)

/-- `parse_therm_prop`. -/
def parseThermProp (d : ThermalDesc φ) : Except (Fault × ThermalDesc φ) (ThermalDesc φ) := do
  let d ← copyAttribute alloc node "name" ThermalDesc.name (fun d c => { d with name := some c }) d
  let d ← copyAttribute alloc node "sensor-label" ThermalDesc.sensor_label
    (fun d c => { d with sensor_label := some c }) d
  let d ← copyAttribute alloc node "threshold-label" ThermalDesc.threshold_label
    (fun d c => { d with threshold_label := some c }) d
  let d : ThermalDesc φ := { d with
    multiplier := ((node.getAttribute "multiplier").map fl.atof).or d.multiplier
    type := ((node.getAttribute "type").bind fun c => deviceTypes.lookup c).getD d.type }
  parseCores alloc node d

/-! ## Elements -/

/-- A new entry of `platform_data`.  The multiplier is whatever is there. -/
def freshThermal (old : Option (ThermalDesc φ)) : ThermalDesc φ where
  name := none
  type := .unknown
  sensor_label := none
  throttling_threshold := fl.UNKNOWN_TEMPERATURE
  vr_throttling_threshold := fl.UNKNOWN_TEMPERATURE
  shutdown_threshold := fl.UNKNOWN_TEMPERATURE
  threshold_label := none
  throttling_threshold_path := none
  vr_throttling_threshold_path := none
  shutdown_threshold_path := none
  multiplier := old.bind ThermalDesc.multiplier
  cores := 0
  core_names := none
  read_cluster := false
  temperature_path := none

/-- A new entry of `cooling_data`.  The type is whatever is there. -/
def freshCooling (old : Option CoolingDesc) : CoolingDesc := ⟨none, old.bind CoolingDesc.type, none⟩

/-- A property of the entry behind the counted ones. -/
def updateCurrent {D : Type} (f : D → Partial D) (t : Table D) : Partial (Table D) :=
  match t.current with
  | none => .error (.crash, t)
  | some d => onPart t.set (f d)

/-- `processNode`. -/
def processNode (g : Globals φ) : Partial (Globals φ) :=
  if node.type = .text ∨ node.type = .significant_whitespace then .ok g
  else if node.isElement "thermal_device" then
    if alloc.table then .ok { g with platform_data := g.platform_data.start (freshThermal fl) }
    else .error (.error (-ENOMEM), { g with platform_data := g.platform_data.lose })
  else if node.isEnd "thermal_device" then .ok { g with platform_data := g.platform_data.stop }
  else if node.isElement "cooling_device" then
    if alloc.table then .ok { g with cooling_data := g.cooling_data.start freshCooling }
    else .error (.error (-ENOMEM), { g with cooling_data := g.cooling_data.lose })
  else if node.isEnd "cooling_device" then .ok { g with cooling_data := g.cooling_data.stop }
  else if node.isElement "cpu_usages" then
    match node.getAttribute "cpus" with
    | none => .error (.error (-EINVAL), g)
    | some c =>
      if alloc.cpus then .ok { g with num_cpus_total := some (atoi c.toList) }
      else .error (.error (-ENOMEM), { g with num_cpus_total := none })
  else if g.platform_data.flag ∧ node.isElement "thermal-prop" then
    onPart (fun t => { g with platform_data := t }) (updateCurrent (parseThermProp fl alloc node) g.platform_data)
  else if g.cooling_data.flag ∧ node.isElement "cooling-prop" then
    onPart (fun t => { g with cooling_data := t }) (updateCurrent (parseCoolProp alloc node) g.cooling_data)
  else .ok g

end

section

variable {φ : Type} (fl : Floats φ)

def processNodes (allocs : Nat → Alloc) (g : Globals φ) : List Node → Partial (Globals φ)
  | [] => .ok g
  | node :: rest =>
    match processNode fl (allocs 0) node g with
    | .error stop => .error stop
    | .ok g => processNodes (fun n => allocs (n + 1)) g rest

/-- `streamFile`, with `none` for a file that cannot be opened. -/
def streamFile (allocs : Nat → Alloc) (doc : Option XmlDoc) (g : Globals φ) : Partial (Globals φ) :=
  match doc with
  | none => .error (.error (-EBADF), g)
  | some doc =>
    match processNodes fl allocs g doc.nodes with
    | .error stop => .error stop
    | .ok g => if doc.complete then .ok g else .error (.error (-EINVAL), g)

def Globals.unparsed (g : Globals φ) : Bool :=
  g.platform_data.entries.isNone ∧ g.cooling_data.entries.isNone ∧ g.num_cpus_total.isNone

def configFile (hw_name : String) : String := "/system/etc/thermalhal." ++ hw_name ++ ".xml"

/-- `parse_thermal_config_xml`. -/
def parseThermalConfigXml (allocs : Nat → Alloc) (files : String → Option XmlDoc) (hw_name : String) (g : Globals φ) :
    Partial (Globals φ) :=
  if g.unparsed then streamFile fl allocs (files (configFile hw_name)) g else .ok g

/-- A call of `get_temperatures`, `get_cpu_usages` or `get_cooling_devices`, with the
property it reads, the files and the memory it finds. -/
structure Call where
  hw_name : Option String
  files : String → Option XmlDoc
  allocs : Nat → Alloc

/-- What each of these calls begins with. -/
def configure (call : Call) (g : Globals φ) : Partial (Globals φ) :=
  match call.hw_name with
  | none => .error (.error (-ENOENT), g)
  | some hw_name =>
    match parseThermalConfigXml fl call.allocs call.files hw_name g with
    | .ok g => .ok g
    | .error (.error _, g) => .error (.error (-EINVAL), g)
    | .error (.crash, g) => .error (.crash, g)

end

/-! ## What a node does -/

section

variable {φ : Type} {fl : Floats φ} {alloc : Alloc} {node : Node} {g g' : Globals φ}

theorem isElement_iff {name : String} : node.isElement name = true ↔ node.type = .element ∧ node.name = name := by
  simp [Node.isElement]

theorem isEnd_iff {name : String} : node.isEnd name = true ↔ node.type = .end_element ∧ node.name = name := by
  simp [Node.isEnd]

/-- Whether a node is one that the parser looks at in any case. -/
structure Marks (node : Node) (thermal thermalEnd cooling coolingEnd cpus : Bool) : Prop where
  thermal : node.isElement "thermal_device" = thermal
  thermalEnd : node.isEnd "thermal_device" = thermalEnd
  cooling : node.isElement "cooling_device" = cooling
  coolingEnd : node.isEnd "cooling_device" = coolingEnd
  cpus : node.isElement "cpu_usages" = cpus

theorem Marks.of_element {name : String} (h : node.isElement name = true) :
    Marks node (name = "thermal_device") false (name = "cooling_device") false (name = "cpu_usages") := by
  obtain ⟨htype, hname⟩ := isElement_iff.mp h
  constructor <;> simp [Node.isElement, Node.isEnd, htype, hname]

theorem Marks.of_end {name : String} (h : node.isEnd name = true) :
    Marks node false (name = "thermal_device") false (name = "cooling_device") false := by
  obtain ⟨htype, hname⟩ := isEnd_iff.mp h
  constructor <;> simp [Node.isElement, Node.isEnd, htype, hname]

theorem Marks.of_none (hthermal : ¬ node.isElement "thermal_device" = true)
    (hthermalEnd : ¬ node.isEnd "thermal_device" = true) (hcooling : ¬ node.isElement "cooling_device" = true)
    (hcoolingEnd : ¬ node.isEnd "cooling_device" = true) (hcpus : ¬ node.isElement "cpu_usages" = true) :
    Marks node false false false false false :=
  ⟨Bool.eq_false_iff.mpr hthermal, Bool.eq_false_iff.mpr hthermalEnd, Bool.eq_false_iff.mpr hcooling,
    Bool.eq_false_iff.mpr hcoolingEnd, Bool.eq_false_iff.mpr hcpus⟩

/-- Text is no element. -/
theorem no_element_of_text (h : node.type = .text ∨ node.type = .significant_whitespace) (name : String) :
    node.isElement name = false ∧ node.isEnd name = false := by
  rcases h with h | h <;> simp [Node.isElement, Node.isEnd, h]

theorem updateCurrent_ok {D : Type} {f : D → Partial D} {t t' : Table D} (h : updateCurrent f t = .ok t') :
    ∃ d d', t.current = some d ∧ f d = .ok d' ∧ t' = t.set d' := by
  unfold updateCurrent at h
  cases hcurrent : t.current with
  | none =>
    rw [hcurrent] at h
    cases h
  | some d =>
    rw [hcurrent] at h
    dsimp only at h
    cases hf : f d with
    | error stop =>
      rw [hf] at h
      cases h
    | ok d' =>
      rw [hf] at h
      exact ⟨d, d', rfl, hf, (Except.ok.inj h).symm⟩

theorem onPart_ok {σ τ : Type} {put : τ → σ} {r : Partial τ} {s : σ} (h : onPart put r = .ok s) :
    ∃ t, r = .ok t ∧ s = put t := by
  cases r with
  | error stop => cases h
  | ok t => exact ⟨t, rfl, (Except.ok.inj h).symm⟩

/-- **What a node does that is read.** -/
inductive Reads (fl : Floats φ) (alloc : Alloc) (node : Node) (g : Globals φ) : Globals φ → Prop
  | thermal (hm : Marks node true false false false false) :
    Reads fl alloc node g { g with platform_data := g.platform_data.start (freshThermal fl) }
  | thermalEnd (hm : Marks node false true false false false) :
    Reads fl alloc node g { g with platform_data := g.platform_data.stop }
  | cooling (hm : Marks node false false true false false) :
    Reads fl alloc node g { g with cooling_data := g.cooling_data.start freshCooling }
  | coolingEnd (hm : Marks node false false false true false) :
    Reads fl alloc node g { g with cooling_data := g.cooling_data.stop }
  | cpus (hm : Marks node false false false false true) (c : String) (hc : node.getAttribute "cpus" = some c) :
    Reads fl alloc node g { g with num_cpus_total := some (atoi c.toList) }
  | thermalProp (hm : Marks node false false false false false) (hflag : g.platform_data.flag = true)
    (hprop : node.isElement "thermal-prop" = true) (d d' : ThermalDesc φ) (hd : g.platform_data.current = some d)
    (hd' : parseThermProp fl alloc node d = .ok d') :
    Reads fl alloc node g { g with platform_data := g.platform_data.set d' }
  | coolingProp (hm : Marks node false false false false false) (hflag : g.cooling_data.flag = true)
    (hprop : node.isElement "cooling-prop" = true) (d d' : CoolingDesc) (hd : g.cooling_data.current = some d)
    (hd' : parseCoolProp alloc node d = .ok d') :
    Reads fl alloc node g { g with cooling_data := g.cooling_data.set d' }
  | ignored (hm : Marks node false false false false false)
    (hthermal : node.isElement "thermal-prop" = true → g.platform_data.flag = false)
    (hcooling : node.isElement "cooling-prop" = true → g.cooling_data.flag = false) : Reads fl alloc node g g

/-- A node that the parser stops at has an error code, and changes what it could not
store. -/
inductive Refused (alloc : Alloc) (node : Node) (g : Globals φ) : Globals φ → Prop
  | thermal (hm : Marks node true false false false false) :
    Refused alloc node g { g with platform_data := g.platform_data.lose }
  | cooling (hm : Marks node false false true false false) :
    Refused alloc node g { g with cooling_data := g.cooling_data.lose }
  | cpus (hm : Marks node false false false false true) (c : String) (hc : node.getAttribute "cpus" = some c) :
    Refused alloc node g { g with num_cpus_total := none }
  | no_cpus (hm : Marks node false false false false true) (hc : node.getAttribute "cpus" = none) :
    Refused alloc node g g
  | thermalProp (hm : Marks node false false false false false) (d d' : ThermalDesc φ)
    (hd : g.platform_data.current = some d) : Refused alloc node g { g with platform_data := g.platform_data.set d' }
  | coolingProp (hm : Marks node false false false false false) (d d' : CoolingDesc)
    (hd : g.cooling_data.current = some d) : Refused alloc node g { g with cooling_data := g.cooling_data.set d' }

theorem updateCurrent_error {D : Type} {f : D → Partial D} {t t' : Table D} {code : Int}
    (h : updateCurrent f t = .error (.error code, t')) : ∃ d d', t.current = some d ∧ t' = t.set d' := by
  unfold updateCurrent at h
  cases hcurrent : t.current with
  | none =>
    rw [hcurrent] at h
    cases h
  | some d =>
    rw [hcurrent] at h
    dsimp only at h
    cases hf : f d with
    | error stop =>
      rw [hf] at h
      exact ⟨d, stop.2, rfl, (Prod.mk.inj (Except.error.inj h)).2.symm⟩
    | ok d' =>
      rw [hf] at h
      cases h

theorem onPart_error {σ τ : Type} {put : τ → σ} {r : Partial τ} {fault : Fault} {s : σ}
    (h : onPart put r = .error (fault, s)) : ∃ t, r = .error (fault, t) ∧ s = put t := by
  cases r with
  | ok t => cases h
  | error stop =>
    obtain ⟨rfl, rfl⟩ := Prod.mk.inj (Except.error.inj h)
    exact ⟨stop.2, rfl, rfl⟩

/-- A node is read, or the parser stops at it with an error code or by a crash. -/
theorem processNode_cases (fl : Floats φ) (alloc : Alloc) (node : Node) (g : Globals φ) :
    match processNode fl alloc node g with
    | .ok g' => Reads fl alloc node g g'
    | .error (.error _, g') => Refused alloc node g g'
    | .error (.crash, _) => True := by
  unfold processNode
  by_cases htext : node.type = .text ∨ node.type = .significant_whitespace
  · rw [if_pos htext]
    have hno := no_element_of_text htext
    have hprop (name : String) (flag : Bool) : node.isElement name = true → flag = false := fun hin =>
      absurd hin (by rw [(hno name).1]; exact Bool.false_ne_true)
    exact .ignored ⟨(hno _).1, (hno _).2, (hno _).1, (hno _).2, (hno _).1⟩ (hprop _ _) (hprop _ _)
  rw [if_neg htext]
  by_cases hthermal : node.isElement "thermal_device" = true
  · rw [if_pos hthermal]
    cases alloc.table with
    | true => exact .thermal (.of_element hthermal)
    | false => exact .thermal (.of_element hthermal)
  rw [if_neg hthermal]
  by_cases hthermalEnd : node.isEnd "thermal_device" = true
  · rw [if_pos hthermalEnd]
    exact .thermalEnd (.of_end hthermalEnd)
  rw [if_neg hthermalEnd]
  by_cases hcooling : node.isElement "cooling_device" = true
  · rw [if_pos hcooling]
    cases alloc.table with
    | true => exact .cooling (.of_element hcooling)
    | false => exact .cooling (.of_element hcooling)
  rw [if_neg hcooling]
  by_cases hcoolingEnd : node.isEnd "cooling_device" = true
  · rw [if_pos hcoolingEnd]
    exact .coolingEnd (.of_end hcoolingEnd)
  rw [if_neg hcoolingEnd]
  by_cases hcpus : node.isElement "cpu_usages" = true
  · rw [if_pos hcpus]
    cases hc : node.getAttribute "cpus" with
    | none => exact .no_cpus (.of_element hcpus) hc
    | some c =>
      cases alloc.cpus with
      | true => exact .cpus (.of_element hcpus) c hc
      | false => exact .cpus (.of_element hcpus) c hc
  rw [if_neg hcpus]
  have hm := Marks.of_none hthermal hthermalEnd hcooling hcoolingEnd hcpus
  by_cases hprop : g.platform_data.flag = true ∧ node.isElement "thermal-prop" = true
  · rw [if_pos hprop]
    split
    case h_1 h =>
      obtain ⟨t, ht, rfl⟩ := onPart_ok h
      obtain ⟨d, d', hd, hd', rfl⟩ := updateCurrent_ok ht
      exact .thermalProp hm hprop.1 hprop.2 d d' hd hd'
    case h_2 h =>
      obtain ⟨t, ht, rfl⟩ := onPart_error h
      obtain ⟨d, d', hd, rfl⟩ := updateCurrent_error ht
      exact .thermalProp hm d d' hd
    case h_3 => exact trivial
  rw [if_neg hprop]
  by_cases hprop' : g.cooling_data.flag = true ∧ node.isElement "cooling-prop" = true
  · rw [if_pos hprop']
    split
    case h_1 h =>
      obtain ⟨t, ht, rfl⟩ := onPart_ok h
      obtain ⟨d, d', hd, hd', rfl⟩ := updateCurrent_ok ht
      exact .coolingProp hm hprop'.1 hprop'.2 d d' hd hd'
    case h_2 h =>
      obtain ⟨t, ht, rfl⟩ := onPart_error h
      obtain ⟨d, d', hd, rfl⟩ := updateCurrent_error ht
      exact .coolingProp hm d d' hd
    case h_3 => exact trivial
  rw [if_neg hprop']
  exact .ignored hm (fun hin => Bool.eq_false_iff.mpr fun hflag => hprop ⟨hflag, hin⟩)
    (fun hin => Bool.eq_false_iff.mpr fun hflag => hprop' ⟨hflag, hin⟩)

theorem processNode_reads (h : processNode fl alloc node g = .ok g') : Reads fl alloc node g g' := by
  have hcases := processNode_cases fl alloc node g
  rw [h] at hcases
  exact hcases

theorem processNode_refused {code : Int} (h : processNode fl alloc node g = .error (.error code, g')) :
    Refused alloc node g g' := by
  have hcases := processNode_cases fl alloc node g
  rw [h] at hcases
  exact hcases

end

/-! ## What a parse leaves -/

section

variable {φ : Type} {fl : Floats φ}

/-- The tables, the counts and the number of processors are as the program starts with
them.  The two flags may differ. -/
structure Pristine (g : Globals φ) : Prop where
  platform_data : g.platform_data.entries = none
  platform_data_count : g.platform_data.count = 0
  cooling_data : g.cooling_data.entries = none
  cooling_data_count : g.cooling_data.count = 0
  num_cpus_total : g.num_cpus_total = none

/-- What the nodes so far have set. -/
structure Progress (before : List Node) (g : Globals φ) : Prop where
  platform_data : g.platform_data.entries = none ↔ ∀ n ∈ before, n.isElement "thermal_device" = false
  platform_data_count : g.platform_data.count = before.countP fun n => n.isEnd "thermal_device"
  cooling_data : g.cooling_data.entries = none ↔ ∀ n ∈ before, n.isElement "cooling_device" = false
  cooling_data_count : g.cooling_data.count = before.countP fun n => n.isEnd "cooling_device"
  num_cpus_total : g.num_cpus_total = none ↔ ∀ n ∈ before, n.isElement "cpu_usages" = false

theorem Pristine.progress {g : Globals φ} (h : Pristine g) : Progress [] g :=
  ⟨by simp [h.platform_data], h.platform_data_count, by simp [h.cooling_data], h.cooling_data_count,
    by simp [h.num_cpus_total]⟩

/-- One more node. -/
theorem Progress.snoc {before : List Node} {alloc : Alloc} {node : Node} {g g' : Globals φ} (h : Progress before g)
    (hr : Reads fl alloc node g g') : Progress (before ++ [node]) g' := by
  have hall (p : Node → Bool) :
      (∀ n ∈ before ++ [node], p n = false) ↔ (∀ n ∈ before, p n = false) ∧ p node = false := by
    simp [or_imp, forall_and]
  have hcount (p : Node → Bool) : (before ++ [node]).countP p = before.countP p + (if p node then 1 else 0) := by
    rw [List.countP_append, List.countP_singleton]
  have heffect : (g'.platform_data.entries = none ↔
        g.platform_data.entries = none ∧ node.isElement "thermal_device" = false) ∧
      g'.platform_data.count = g.platform_data.count + (if node.isEnd "thermal_device" then 1 else 0) ∧
      (g'.cooling_data.entries = none ↔ g.cooling_data.entries = none ∧ node.isElement "cooling_device" = false) ∧
      g'.cooling_data.count = g.cooling_data.count + (if node.isEnd "cooling_device" then 1 else 0) ∧
      (g'.num_cpus_total = none ↔ g.num_cpus_total = none ∧ node.isElement "cpu_usages" = false) := by
    cases hr with
    | thermal hm => simp [hm.thermal, hm.thermalEnd, hm.cooling, hm.coolingEnd, hm.cpus, Table.start]
    | thermalEnd hm => simp [hm.thermal, hm.thermalEnd, hm.cooling, hm.coolingEnd, hm.cpus, Table.stop]
    | cooling hm => simp [hm.thermal, hm.thermalEnd, hm.cooling, hm.coolingEnd, hm.cpus, Table.start]
    | coolingEnd hm => simp [hm.thermal, hm.thermalEnd, hm.cooling, hm.coolingEnd, hm.cpus, Table.stop]
    | cpus hm => simp [hm.thermal, hm.thermalEnd, hm.cooling, hm.coolingEnd, hm.cpus]
    | thermalProp hm => simp [hm.thermal, hm.thermalEnd, hm.cooling, hm.coolingEnd, hm.cpus, Table.set]
    | coolingProp hm => simp [hm.thermal, hm.thermalEnd, hm.cooling, hm.coolingEnd, hm.cpus, Table.set]
    | ignored hm => simp [hm.thermal, hm.thermalEnd, hm.cooling, hm.coolingEnd, hm.cpus]
  obtain ⟨hthermal, hthermalEnd, hcooling, hcoolingEnd, hcpus⟩ := heffect
  refine ⟨?_, ?_, ?_, ?_, ?_⟩
  · rw [hall, hthermal, h.platform_data]
  · rw [hcount, hthermalEnd, h.platform_data_count]
  · rw [hall, hcooling, h.cooling_data]
  · rw [hcount, hcoolingEnd, h.cooling_data_count]
  · rw [hall, hcpus, h.num_cpus_total]

theorem processNodes_progress {nodes before : List Node} {allocs : Nat → Alloc} {g g' : Globals φ}
    (hp : Progress before g) (h : processNodes fl allocs g nodes = .ok g') : Progress (before ++ nodes) g' := by
  induction nodes generalizing before allocs g with
  | nil =>
    obtain rfl := Except.ok.inj h
    rwa [List.append_nil]
  | cons node rest ih =>
    rw [processNodes] at h
    split at h
    case h_1 => cases h
    case h_2 g₁ h₁ =>
      have := ih (hp.snoc (processNode_reads h₁)) h
      rwa [List.append_assoc, List.singleton_append] at this

/-! ## Failed parses -/

/-- The parse of a call stops at a node, or at the end with an error of the reader. -/
def StopsAt (fl : Floats φ) (g : Globals φ) (call : Call) (before : List Node) (last : Option Node) (g' : Globals φ) :
    Prop :=
  ∃ hw_name doc g₁, call.hw_name = some hw_name ∧ call.files (configFile hw_name) = some doc ∧
    processNodes fl call.allocs g before = .ok g₁ ∧
    match last with
    | some node => (∃ after, doc.nodes = before ++ node :: after) ∧
      ∃ code, processNode fl (call.allocs before.length) node g₁ = .error (.error code, g')
    | none => doc.nodes = before ∧ doc.complete = false ∧ g' = g₁

/-- No device was counted before the last node, and what was set before it is what the
last node fails to set again. -/
structure Untouched (before : List Node) (last : Option Node) : Prop where
  not_counted : ∀ n ∈ before, n.isEnd "thermal_device" = false ∧ n.isEnd "cooling_device" = false
  thermal : (∃ n ∈ before, n.isElement "thermal_device" = true) → ∃ n ∈ last, n.isElement "thermal_device" = true
  cooling : (∃ n ∈ before, n.isElement "cooling_device" = true) → ∃ n ∈ last, n.isElement "cooling_device" = true
  cpus : (∃ n ∈ before, n.isElement "cpu_usages" = true) →
    ∃ n ∈ last, n.isElement "cpu_usages" = true ∧ n.getAttribute "cpus" ≠ none

/-- The node at which the parse of a call stops, if it does, comes before everything that
is kept. -/
def LeavesNothing (fl : Floats φ) (g : Globals φ) (call : Call) : Prop :=
  ∀ before last g', StopsAt fl g call before last g' → Untouched before last

/-- A call that returns an error, and what it leaves. -/
def Fails (fl : Floats φ) (g : Globals φ) (call : Call) (g' : Globals φ) : Prop :=
  ∃ code, configure fl call g = .error (.error code, g')

theorem processNodes_error {nodes : List Node} {allocs : Nat → Alloc} {g g' : Globals φ} {code : Int}
    (h : processNodes fl allocs g nodes = .error (.error code, g')) :
    ∃ before node after g₁, nodes = before ++ node :: after ∧ processNodes fl allocs g before = .ok g₁ ∧
      processNode fl (allocs before.length) node g₁ = .error (.error code, g') := by
  induction nodes generalizing allocs g with
  | nil => cases h
  | cons node rest ih =>
    rw [processNodes] at h
    split at h
    case h_1 stop hstop =>
      obtain rfl := Except.error.inj h
      exact ⟨[], node, rest, g, rfl, rfl, hstop⟩
    case h_2 g₂ h₂ =>
      obtain ⟨before, last, after, g₁, rfl, hbefore, hlast⟩ := ih h
      refine ⟨node :: before, last, after, g₁, rfl, ?_, hlast⟩
      rw [processNodes, h₂]
      exact hbefore

/-- A call that fails has not come to the file, or stops in it. -/
theorem fails_cases {g g' : Globals φ} {call : Call} (h : Fails fl g call g') :
    g' = g ∨ g.unparsed = true ∧ ∃ before last, StopsAt fl g call before last g' := by
  obtain ⟨code, h⟩ := h
  unfold configure at h
  cases hname : call.hw_name with
  | none =>
    rw [hname] at h
    obtain ⟨-, rfl⟩ := Prod.mk.inj (Except.error.inj h)
    exact .inl rfl
  | some hw_name =>
    rw [hname] at h
    dsimp only at h
    split at h
    case h_1 => cases h
    case h_3 => cases h
    case h_2 code' g₂ hparse =>
      obtain ⟨-, rfl⟩ := Prod.mk.inj (Except.error.inj h)
      unfold parseThermalConfigXml at hparse
      split at hparse
      case isFalse => cases hparse
      case isTrue hunparsed =>
        unfold streamFile at hparse
        cases hfile : call.files (configFile hw_name) with
        | none =>
          rw [hfile] at hparse
          obtain ⟨-, rfl⟩ := Prod.mk.inj (Except.error.inj hparse)
          exact .inl rfl
        | some doc =>
          refine .inr ⟨hunparsed, ?_⟩
          rw [hfile] at hparse
          dsimp only at hparse
          split at hparse
          case h_1 stop hstop =>
            obtain rfl := Except.error.inj hparse
            obtain ⟨before, node, after, g₁, hnodes, hbefore, hnode⟩ := processNodes_error hstop
            exact ⟨before, some node, hw_name, doc, g₁, hname, hfile, hbefore, ⟨after, hnodes⟩, code', hnode⟩
          case h_2 g₁ hall =>
            split at hparse
            case isTrue => cases hparse
            case isFalse hincomplete =>
              obtain ⟨-, rfl⟩ := Prod.mk.inj (Except.error.inj hparse)
              exact ⟨doc.nodes, none, hw_name, doc, g₁, hname, hfile, hall, rfl, Bool.eq_false_iff.mpr hincomplete, rfl⟩

theorem Progress.untouched_iff {before : List Node} {g : Globals φ} (h : Progress before g) (last : Option Node) :
    Untouched before last ↔ g.platform_data.count = 0 ∧ g.cooling_data.count = 0 ∧
      (g.platform_data.entries = none ∨ ∃ n ∈ last, n.isElement "thermal_device" = true) ∧
      (g.cooling_data.entries = none ∨ ∃ n ∈ last, n.isElement "cooling_device" = true) ∧
      (g.num_cpus_total = none ∨ ∃ n ∈ last, n.isElement "cpu_usages" = true ∧ n.getAttribute "cpus" ≠ none) := by
  have hnone (p : Node → Bool) (q : Prop) :
      ((∃ n ∈ before, p n = true) → q) ↔ (∀ n ∈ before, p n = false) ∨ q := by
    rw [imp_iff_not_or]
    simp
  have hzero (p : Node → Bool) : before.countP p = 0 ↔ ∀ n ∈ before, p n = false := by
    simp [List.countP_eq_zero]
  rw [h.platform_data, h.cooling_data, h.num_cpus_total, h.platform_data_count, h.cooling_data_count, hzero, hzero,
    ← hnone, ← hnone, ← hnone]
  constructor
  · intro h
    exact ⟨fun n hn => (h.not_counted n hn).1, fun n hn => (h.not_counted n hn).2, h.thermal, h.cooling, h.cpus⟩
  · rintro ⟨hthermalEnd, hcoolingEnd, hthermal, hcooling, hcpus⟩
    exact ⟨fun n hn => ⟨hthermalEnd n hn, hcoolingEnd n hn⟩, hthermal, hcooling, hcpus⟩

theorem pristine_iff {g : Globals φ} : Pristine g ↔ g.platform_data.count = 0 ∧ g.cooling_data.count = 0 ∧
    g.platform_data.entries = none ∧ g.cooling_data.entries = none ∧ g.num_cpus_total = none :=
  ⟨fun h => ⟨h.platform_data_count, h.cooling_data_count, h.platform_data, h.cooling_data, h.num_cpus_total⟩,
    fun ⟨hcount, hcount', hentries, hentries', hcpus⟩ => ⟨hentries, hcount, hentries', hcount', hcpus⟩⟩

/-- **What a parse that stops leaves.** -/
theorem stopsAt_pristine_iff {g g' : Globals φ} {call : Call} {before : List Node} {last : Option Node}
    (hg : Pristine g) (h : StopsAt fl g call before last g') : Pristine g' ↔ Untouched before last := by
  obtain ⟨hw_name, doc, g₁, -, -, hbefore, hlast⟩ := h
  have hp := processNodes_progress hg.progress hbefore
  rw [List.nil_append] at hp
  rw [hp.untouched_iff, pristine_iff]
  cases last with
  | none =>
    obtain ⟨-, -, rfl⟩ := hlast
    simp
  | some node =>
    obtain ⟨-, code, hnode⟩ := hlast
    cases processNode_refused hnode with
    | thermal hm => simp [hm.thermal, hm.cooling, hm.cpus, Table.lose]
    | cooling hm => simp [hm.thermal, hm.cooling, hm.cpus, Table.lose]
    | cpus hm c hc => simp [hm.thermal, hm.cooling, hm.cpus, hc]
    | no_cpus hm hc => simp [hm.thermal, hm.cooling, hm.cpus, hc]
    | thermalProp hm d d' hd => simp [hm.thermal, hm.cooling, hm.cpus, Table.set]
    | coolingProp hm d d' hd => simp [hm.thermal, hm.cooling, hm.cpus, Table.set]

theorem processNodes_append {allocs : Nat → Alloc} {g g₁ : Globals φ} {first : List Node}
    (h : processNodes fl allocs g first = .ok g₁) (second : List Node) :
    processNodes fl allocs g (first ++ second) = processNodes fl (fun n => allocs (n + first.length)) g₁ second := by
  induction first generalizing allocs g with
  | nil =>
    obtain rfl := Except.ok.inj h
    rfl
  | cons node rest ih =>
    rw [processNodes] at h
    rw [List.cons_append, processNodes]
    split at h
    case h_1 => cases h
    case h_2 g₂ h₂ =>
      rw [ih h]
      simp only [List.length_cons, Nat.add_assoc]

theorem Pristine.unparsed {g : Globals φ} (h : Pristine g) : g.unparsed = true := by
  unfold Globals.unparsed
  rw [h.platform_data, h.cooling_data, h.num_cpus_total]
  rfl

/-- A call whose parse stops fails. -/
theorem stopsAt_fails {g g' : Globals φ} {call : Call} {before : List Node} {last : Option Node} (hg : Pristine g)
    (h : StopsAt fl g call before last g') : Fails fl g call g' := by
  obtain ⟨hw_name, doc, g₁, hname, hfile, hbefore, hlast⟩ := h
  have hstream : ∃ code, streamFile fl call.allocs (some doc) g = .error (.error code, g') := by
    unfold streamFile
    dsimp only
    cases last with
    | none =>
      obtain ⟨hnodes, hincomplete, rfl⟩ := hlast
      rw [hnodes, hbefore]
      dsimp only
      rw [hincomplete]
      exact ⟨_, rfl⟩
    | some node =>
      obtain ⟨⟨after, hnodes⟩, code, hnode⟩ := hlast
      rw [hnodes, processNodes_append hbefore, processNodes, Nat.zero_add, hnode]
      exact ⟨_, rfl⟩
  obtain ⟨code, hstream⟩ := hstream
  refine ⟨-EINVAL, ?_⟩
  unfold configure
  rw [hname]
  dsimp only
  rw [parseThermalConfigXml, if_pos hg.unparsed, hfile, hstream]

/-- A call that fails leaves the beginning exactly if nothing is kept before it stops. -/
theorem fails_pristine_iff {g g' : Globals φ} {call : Call} (hg : Pristine g) (h : Fails fl g call g') :
    Pristine g' ↔ LeavesNothing fl g call := by
  constructor
  · intro hg' before last g'' hstops
    obtain ⟨code, h⟩ := h
    obtain ⟨code', h'⟩ := stopsAt_fails hg hstops
    obtain ⟨-, rfl⟩ := Prod.mk.inj (Except.error.inj (h.symm.trans h'))
    exact (stopsAt_pristine_iff hg hstops).mp hg'
  · intro hleaves
    rcases fails_cases h with rfl | ⟨-, before, last, hstops⟩
    · exact hg
    · exact (stopsAt_pristine_iff hg hstops).mpr (hleaves before last g' hstops)

/-- **Failed parses.** -/
theorem failed_parse_from_scratch (fl : Floats φ) (g : Globals φ)
    (hg : Reachable (fun g => g = Globals.initial) (Fails fl) (LeavesNothing fl) g) (call : Call) :
    Pristine g ∨ ∀ g', configure fl call g ≠ .ok g' := by
  refine .inl (hg.invariant (P := Pristine) ?_ ?_)
  · rintro g rfl
    exact ⟨rfl, rfl, rfl, rfl, rfl⟩
  · intro g call g' hg hok h
    exact (fails_pristine_iff hg h).mpr hok

/-- Whole numbers in place of floating point. -/
def wholeFloats : Floats Int := ⟨fun c => atoi c.toList, -1⟩

def plentyOfMemory : Alloc := ⟨true, fun _ => true, true, fun _ => true, fun _ => true⟩

/-- A call on a board with one configuration. -/
def boardCall (doc : XmlDoc) : Call := ⟨some "mocha", fun _ => some doc, fun _ => plentyOfMemory⟩

/-- A document that ends before its root does. -/
def brokenDoc : XmlDoc := ⟨[⟨.element, "thermalhal", []⟩], false⟩

/-- A device, and then the number of processors is missing. -/
def noCpusDoc : XmlDoc :=
  ⟨[⟨.element, "thermalhal", []⟩, ⟨.element, "thermal_device", []⟩,
    ⟨.element, "thermal-prop", [("name", "GPU"), ("sensor-label", "GPU-therm")]⟩, ⟨.end_element, "thermal_device", []⟩,
    ⟨.element, "cpu_usages", []⟩], true⟩

theorem failed_parse_of_broken :
    Fails wholeFloats Globals.initial (boardCall brokenDoc) Globals.initial ∧ (Pristine (φ := Int) Globals.initial ∨
      ∀ g', configure wholeFloats (boardCall noCpusDoc) Globals.initial ≠ .ok g') := by
  have hfails : Fails wholeFloats Globals.initial (boardCall brokenDoc) Globals.initial := ⟨-EINVAL, rfl⟩
  have hstart : Pristine (φ := Int) Globals.initial := ⟨rfl, rfl, rfl, rfl, rfl⟩
  have hleaves := (fails_pristine_iff hstart hfails).mp hstart
  exact ⟨hfails, failed_parse_from_scratch wholeFloats _ (.next (.start rfl) hleaves hfails) (boardCall noCpusDoc)⟩

/-- What the document leaves: a device that has no multiplier. -/
def leftDevice : Globals Int where
  platform_data := ⟨some [some { freshThermal wholeFloats none with name := some "GPU", sensor_label := some "GPU-therm" }],
    1, false⟩
  cooling_data := .empty
  num_cpus_total := none

/-- The device that a failed parse left is taken by the next call. -/
theorem device_left_by_failed_parse :
    ¬ ∀ (fl : Floats Int) (g : Globals Int)
      (_ : Reachable (fun g => g = Globals.initial) (Fails fl) (fun _ _ => True) g) (call : Call),
      Pristine g ∨ ∀ g', configure fl call g ≠ .ok g' := by
  intro h
  have hfails : Fails wholeFloats Globals.initial (boardCall noCpusDoc) leftDevice := ⟨-EINVAL, rfl⟩
  rcases h wholeFloats leftDevice (.next (.start rfl) trivial hfails) (boardCall noCpusDoc) with hscratch | hfailed
  · cases hscratch.platform_data
  · exact hfailed leftDevice rfl

end

end MochaHal.Thermal
