import MochaHal.Lib.Checked
import MochaHal.Thermal.Descriptors

/-! Documents, and the descriptors that come of them.  The reader reports an element that
is empty without an end, so it is not counted; a device in a device takes its entry; and no
default is written for the multiplier of a thermal device or the type of a cooling device.
A parse is complete, in any order of the properties, exactly if the document is regular
(`complete_iff_regular`). -/

namespace MochaHal.Thermal

open MochaHal.Checked MochaHal.Decimal MochaHal.Spans MochaHal.Writes

/-! ## Documents -/

/-- A node that is no element. -/
inductive Leaf
  | text
  | significant_whitespace
  | other
  deriving DecidableEq, Repr

def Leaf.type : Leaf → NodeType
  | .text => .text
  | .significant_whitespace => .significant_whitespace
  | .other => .other

/-- What stands in an element or in the document: leaves, elements with one tag, and
elements with content between two tags. -/
inductive Forest
  | nil
  | leaf (l : Leaf) (rest : Forest)
  | empty (name : String) (attribs : List (String × String)) (rest : Forest)
  | elem (name : String) (attribs : List (String × String)) (content rest : Forest)
  deriving DecidableEq, Repr

/-- The start of an element. -/
def tag (name : String) (attribs : List (String × String)) : Node := ⟨.element, name, attribs⟩

def endTag (name : String) : Node := ⟨.end_element, name, []⟩

/-- The nodes as the reader reports them: only an element with content has an end. -/
def Forest.nodes : Forest → List Node
  | .nil => []
  | .leaf l rest => ⟨l.type, "--", []⟩ :: rest.nodes
  | .empty name attribs rest => tag name attribs :: rest.nodes
  | .elem name attribs content rest => tag name attribs :: (content.nodes ++ endTag name :: rest.nodes)

/-- The elements with content of a name, each by its content. -/
def Forest.devices (name : String) : Forest → List Forest
  | .nil => []
  | .leaf _ rest => rest.devices name
  | .empty _ _ rest => rest.devices name
  | .elem name' _ content rest =>
    (if name' = name then [content] else []) ++ (content.devices name ++ rest.devices name)

/-- The empty elements of a name. -/
def Forest.empties (name : String) : Forest → Nat
  | .nil => 0
  | .leaf _ rest => rest.empties name
  | .empty name' _ rest => (if name' = name then 1 else 0) + rest.empties name
  | .elem _ _ content rest => content.empties name + rest.empties name

/-- The number of elements of a name. -/
def Forest.elements (name : String) : Forest → Nat
  | .nil => 0
  | .leaf _ rest => rest.elements name
  | .empty name' _ rest => (if name' = name then 1 else 0) + rest.elements name
  | .elem name' _ content rest => (if name' = name then 1 else 0) + (content.elements name + rest.elements name)

/-- The starts of the elements of a name, in the order of the document. -/
def Forest.tags (name : String) : Forest → List Node
  | .nil => []
  | .leaf _ rest => rest.tags name
  | .empty name' attribs rest => (if name' = name then [tag name attribs] else []) ++ rest.tags name
  | .elem name' attribs content rest =>
    (if name' = name then [tag name attribs] else []) ++ (content.tags name ++ rest.tags name)

/-- A document without what its `thermal-prop` elements say. -/
def Forest.shape : Forest → Forest
  | .nil => .nil
  | .leaf l rest => .leaf l rest.shape
  | .empty name attribs rest => .empty name (if name = "thermal-prop" then [] else attribs) rest.shape
  | .elem name attribs content rest =>
    .elem name (if name = "thermal-prop" then [] else attribs) content.shape rest.shape

/-- The `thermal-prop` elements of each thermal device in another order. -/
inductive Reorder : Forest → Forest → Prop
  | nil : Reorder .nil .nil
  | leaf (l : Leaf) {rest rest' : Forest} (hr : Reorder rest rest') : Reorder (.leaf l rest) (.leaf l rest')
  | empty (name : String) (attribs : List (String × String)) {rest rest' : Forest} (hr : Reorder rest rest') :
    Reorder (.empty name attribs rest) (.empty name attribs rest')
  | elem (name : String) (attribs : List (String × String)) (hname : name ≠ "thermal_device")
    {content content' rest rest' : Forest} (hc : Reorder content content') (hr : Reorder rest rest') :
    Reorder (.elem name attribs content rest) (.elem name attribs content' rest')
  | device (attribs : List (String × String)) {content content' rest rest' : Forest}
    (hshape : content'.shape = content.shape)
    (hprops : (content'.tags "thermal-prop").Perm (content.tags "thermal-prop")) (hr : Reorder rest rest') :
    Reorder (.elem "thermal_device" attribs content rest) (.elem "thermal_device" attribs content' rest')

/-! ## What is asked of a parse -/

section

variable {φ : Type} (fl : Floats φ) (names : Int → Bool)

/-- The counts are right, every counted descriptor is whole, and any order of the
`thermal-prop` elements is parsed to the same. -/
structure Complete (f : Forest) (g : Globals φ) : Prop where
  platform_data_count : g.platform_data.count = f.elements "thermal_device"
  cooling_data_count : g.cooling_data.count = f.elements "cooling_device"
  platform_data : ∀ i < g.platform_data.count, ∃ d,
    (g.platform_data.entries.getD [])[i]? = some (some d) ∧ d.multiplier ≠ none
  cooling_data : ∀ i < g.cooling_data.count, ∃ d,
    (g.cooling_data.entries.getD [])[i]? = some (some d) ∧ d.type ≠ none
  any_order : ∀ f', Reorder f f' →
    streamFile fl (fun _ => plenty names) (some ⟨f'.nodes, true⟩) Globals.initial = .ok g

/-- No device is empty or stands in one of its kind; each thermal device has a multiplier
and each cooling device a type; and the properties of a thermal device agree. -/
structure Regular (f : Forest) : Prop where
  not_empty : f.empties "thermal_device" = 0 ∧ f.empties "cooling_device" = 0
  apart : ∀ c ∈ f.devices "thermal_device", c.devices "thermal_device" = []
  cooling_apart : ∀ c ∈ f.devices "cooling_device", c.devices "cooling_device" = []
  multiplier : ∀ c ∈ f.devices "thermal_device", ∃ p ∈ c.tags "thermal-prop", p.getAttribute "multiplier" ≠ none
  type : ∀ c ∈ f.devices "cooling_device", ∃ p ∈ c.tags "cooling-prop", p.getAttribute "type" ≠ none
  agree : ∀ c ∈ f.devices "thermal_device", PropsAgree fl names (c.tags "thermal-prop")

end

/-! ## The two tables -/

/-- What a node means for the table of one kind of device. -/
def opOf (device prop : String) (node : Node) : Option (Op Node) :=
  if node.isElement device then some .start
  else if node.isEnd device then some .stop
  else if node.isElement prop then some (.prop node)
  else none

def opsOf (device prop : String) (nodes : List Node) : List (Op Node) := nodes.filterMap (opOf device prop)

def coolUpdate (names : Int → Bool) (p : Node) (d : CoolingDesc) : Option CoolingDesc :=
  (parseCoolProp (plenty names) p d).toOption

/-- What a node means for the number of processors. -/
def cpusStep (old : Option Int) (node : Node) : Option (Option Int) :=
  if node.isElement "cpu_usages" then (node.getAttribute "cpus").map fun c => some (atoi c.toList) else some old

section

variable {φ : Type} {fl : Floats φ} {names : Int → Bool}

abbrev thermalRun (fl : Floats φ) (names : Int → Bool) (t : Table (ThermalDesc φ)) (nodes : List Node) :
    Option (Table (ThermalDesc φ)) :=
  run (freshThermal fl) (thermUpdate fl names) t (opsOf "thermal_device" "thermal-prop" nodes)

abbrev coolingRun (names : Int → Bool) (t : Table CoolingDesc) (nodes : List Node) : Option (Table CoolingDesc) :=
  run freshCooling (coolUpdate names) t (opsOf "cooling_device" "cooling-prop" nodes)

/-- A node and the table of one kind of device. -/
def opStep {D : Type} (fresh : Option D → D) (update : Node → D → Option D) (device prop : String) (t : Table D)
    (node : Node) : Option (Table D) :=
  match opOf device prop node with
  | none => some t
  | some op => step fresh update t op

theorem run_opsOf_cons {D : Type} {fresh : Option D → D} {update : Node → D → Option D} {device prop : String}
    {t : Table D} (node : Node) (nodes : List Node) :
    run fresh update t (opsOf device prop (node :: nodes)) =
      (opStep fresh update device prop t node).bind fun t => run fresh update t (opsOf device prop nodes) := by
  unfold opsOf opStep
  rw [List.filterMap_cons]
  cases opOf device prop node with
  | none => rfl
  | some op => exact run_cons op _

theorem toOption_onPart {σ τ : Type} (put : τ → σ) (r : Partial τ) : (onPart put r).toOption = r.toOption.map put := by
  cases r <;> rfl

theorem toOption_updateCurrent {D : Type} (f : D → Partial D) (t : Table D) :
    (updateCurrent f t).toOption = (t.current.bind fun d => (f d).toOption).map t.set := by
  unfold updateCurrent
  cases t.current with
  | none => rfl
  | some d => exact toOption_onPart t.set (f d)

/-- One node and the parts of the state. -/
theorem processNode_toOption (node : Node) (g : Globals φ) :
    (processNode fl (plenty names) node g).toOption =
      (opStep (freshThermal fl) (thermUpdate fl names) "thermal_device" "thermal-prop" g.platform_data node).bind
        fun t => (opStep freshCooling (coolUpdate names) "cooling_device" "cooling-prop" g.cooling_data node).bind
          fun c => (cpusStep g.num_cpus_total node).map fun n => ⟨t, c, n⟩ := by
  unfold processNode opStep
  by_cases htext : node.type = .text ∨ node.type = .significant_whitespace
  · have hno := no_element_of_text htext
    simp [htext, opOf, hno, cpusStep, Except.toOption]
  rw [if_neg htext]
  by_cases hthermal : node.isElement "thermal_device" = true
  · obtain ⟨htype, hname⟩ := isElement_iff.mp hthermal
    simp [opOf, Node.isElement, Node.isEnd, htype, hname, plenty, cpusStep, step, Except.toOption]
  rw [if_neg hthermal]
  by_cases hthermalEnd : node.isEnd "thermal_device" = true
  · obtain ⟨htype, hname⟩ := isEnd_iff.mp hthermalEnd
    simp [opOf, Node.isElement, Node.isEnd, htype, hname, cpusStep, step, Except.toOption]
  rw [if_neg hthermalEnd]
  by_cases hcooling : node.isElement "cooling_device" = true
  · obtain ⟨htype, hname⟩ := isElement_iff.mp hcooling
    simp [opOf, Node.isElement, Node.isEnd, htype, hname, plenty, cpusStep, step, Except.toOption]
  rw [if_neg hcooling]
  by_cases hcoolingEnd : node.isEnd "cooling_device" = true
  · obtain ⟨htype, hname⟩ := isEnd_iff.mp hcoolingEnd
    simp [opOf, Node.isElement, Node.isEnd, htype, hname, cpusStep, step, Except.toOption]
  rw [if_neg hcoolingEnd]
  by_cases hcpus : node.isElement "cpu_usages" = true
  · obtain ⟨htype, hname⟩ := isElement_iff.mp hcpus
    cases hattr : node.getAttribute "cpus" <;>
      simp [opOf, Node.isElement, Node.isEnd, htype, hname, hattr, plenty, cpusStep, Except.toOption]
  rw [if_neg hcpus]
  by_cases hprop : node.isElement "thermal-prop" = true
  · obtain ⟨htype, hname⟩ := isElement_iff.mp hprop
    cases hflag : g.platform_data.flag with
    | false => simp [opOf, Node.isElement, Node.isEnd, htype, hname, hflag, cpusStep, step, Except.toOption]
    | true =>
      rw [if_pos ⟨rfl, hprop⟩, toOption_onPart, toOption_updateCurrent]
      simp [opOf, Node.isElement, Node.isEnd, htype, hname, hflag, cpusStep, step, Option.bind_assoc]
      refine congrArg _ (funext fun d => ?_)
      unfold thermUpdate
      cases (parseThermProp fl (plenty names) node d).toOption <;> rfl
  by_cases hprop' : node.isElement "cooling-prop" = true
  · obtain ⟨htype, hname⟩ := isElement_iff.mp hprop'
    rw [if_neg fun h => hprop h.2]
    cases hflag : g.cooling_data.flag with
    | false => simp [opOf, Node.isElement, Node.isEnd, htype, hname, hflag, cpusStep, step, Except.toOption]
    | true =>
      rw [if_pos ⟨rfl, hprop'⟩, toOption_onPart, toOption_updateCurrent]
      simp [opOf, Node.isElement, Node.isEnd, htype, hname, hflag, cpusStep, step, Option.bind_assoc]
      refine congrArg _ (funext fun d => ?_)
      unfold coolUpdate
      cases (parseCoolProp (plenty names) node d).toOption <;> rfl
  simp [opOf, hthermal, hthermalEnd, hcooling, hcoolingEnd, hcpus, hprop, hprop', cpusStep, Except.toOption]

/-- **The parts of the state are parsed side by side.** -/
theorem processNodes_iff {nodes : List Node} {g g' : Globals φ} :
    processNodes fl (fun _ => plenty names) g nodes = .ok g' ↔
      thermalRun fl names g.platform_data nodes = some g'.platform_data ∧
        coolingRun names g.cooling_data nodes = some g'.cooling_data ∧
        nodes.foldlM cpusStep g.num_cpus_total = some g'.num_cpus_total := by
  induction nodes generalizing g with
  | nil =>
    rw [processNodes]
    constructor
    · intro h
      obtain rfl := Except.ok.inj h
      exact ⟨rfl, rfl, rfl⟩
    · rintro ⟨ht, hc, hn⟩
      refine congrArg Except.ok ?_
      cases g
      cases g'
      rw [Globals.mk.injEq]
      exact ⟨Option.some.inj ht, Option.some.inj hc, Option.some.inj hn⟩
  | cons node nodes ih =>
    have hcons : processNodes fl (fun _ => plenty names) g (node :: nodes) = .ok g' ↔
        ∃ g₁, (processNode fl (plenty names) node g).toOption = some g₁ ∧
          processNodes fl (fun _ => plenty names) g₁ nodes = .ok g' := by
      rw [processNodes]
      cases processNode fl (plenty names) node g with
      | error stop => simp [Except.toOption]
      | ok g₁ => simp [Except.toOption]
    unfold thermalRun coolingRun
    rw [hcons, processNode_toOption, run_opsOf_cons, run_opsOf_cons, List.foldlM_cons]
    constructor
    · rintro ⟨g₁, hnode, hrest⟩
      obtain ⟨t, ht, hnode⟩ := Option.bind_eq_some_iff.mp hnode
      obtain ⟨c, hc, hnode⟩ := Option.bind_eq_some_iff.mp hnode
      obtain ⟨n, hn, rfl⟩ := Option.map_eq_some_iff.mp hnode
      obtain ⟨ht', hc', hn'⟩ := ih.mp hrest
      exact ⟨Option.bind_eq_some_iff.mpr ⟨t, ht, ht'⟩, Option.bind_eq_some_iff.mpr ⟨c, hc, hc'⟩,
        Option.bind_eq_some_iff.mpr ⟨n, hn, hn'⟩⟩
    · rintro ⟨ht, hc, hn⟩
      obtain ⟨t, ht, ht'⟩ := Option.bind_eq_some_iff.mp ht
      obtain ⟨c, hc, hc'⟩ := Option.bind_eq_some_iff.mp hc
      obtain ⟨n, hn, hn'⟩ := Option.bind_eq_some_iff.mp hn
      refine ⟨⟨t, c, n⟩, ?_, ih.mpr ⟨ht', hc', hn'⟩⟩
      rw [ht, Option.bind_some, hc, Option.bind_some, hn, Option.map_some]

/-! ## Memory -/

/-- Arrays of no names, or of fewer, are allocated as `names` says. -/
def SameNames (names : Int → Bool) (alloc : Alloc) : Prop := ∀ x ≤ 0, alloc.names x = names x

section

variable {alloc : Alloc} {node : Node}

theorem copyAttribute_mono {D : Type} {name : String} {get : D → Option String} {put : D → String → D} {d d' : D}
    (h : copyAttribute alloc node name get put d = .ok d') :
    copyAttribute (plenty names) node name get put d = .ok d' := by
  unfold copyAttribute at h ⊢
  split at h
  case h_1 =>
    split at h
    · exact h
    · cases h
  case h_2 => exact h

theorem parseCores_mono (hnames : SameNames names alloc) {d d' : ThermalDesc φ} (h : parseCores alloc node d = .ok d') :
    parseCores (plenty names) node d = .ok d' := by
  unfold parseCores at h ⊢
  split at h
  case h_1 => exact h
  case h_2 c hc =>
    dsimp only at h ⊢
    by_cases hx : atoi c.toList ≤ 0
    · have hpos : ¬ atoi c.toList > 0 := by omega
      rw [if_pos hx, hnames _ hx] at h
      rw [if_pos hx]
      simpa [plenty, hpos] using h
    · rw [if_neg hx] at h ⊢
      split at h
      case h_1 => cases h
      case h_2 name hname =>
        split at h
        case isFalse => cases h
        case isTrue =>
          rw [if_pos]
          · exact h
          · exact ⟨decide_eq_true (.inl (by omega)), fun _ _ => rfl⟩

theorem parseThermProp_mono (hnames : SameNames names alloc) {d d' : ThermalDesc φ}
    (h : parseThermProp fl alloc node d = .ok d') : parseThermProp fl (plenty names) node d = .ok d' := by
  unfold parseThermProp at h ⊢
  obtain ⟨d₁, h₁, h⟩ := bind_ok h
  obtain ⟨d₂, h₂, h⟩ := bind_ok h
  obtain ⟨d₃, h₃, h⟩ := bind_ok h
  rw [copyAttribute_mono h₁]
  dsimp only [bind, Except.bind]
  rw [copyAttribute_mono h₂]
  dsimp only
  rw [copyAttribute_mono h₃]
  exact parseCores_mono hnames h

theorem parseCoolProp_mono {d d' : CoolingDesc} (h : parseCoolProp alloc node d = .ok d') :
    parseCoolProp (plenty names) node d = .ok d' := by
  unfold parseCoolProp at h ⊢
  obtain ⟨d₁, h₁, h⟩ := bind_ok h
  obtain ⟨d₂, h₂, h⟩ := bind_ok h
  rw [copyAttribute_mono h₁]
  dsimp only [bind, Except.bind]
  rw [h₂]
  exact copyAttribute_mono h

theorem updateCurrent_mono {D : Type} {f f' : D → Partial D} {t t' : Table D}
    (hf : ∀ d d', f d = .ok d' → f' d = .ok d')
    (h : updateCurrent f t = .ok t') : updateCurrent f' t = .ok t' := by
  obtain ⟨d, d', hd, hd', rfl⟩ := updateCurrent_ok h
  unfold updateCurrent
  rw [hd]
  dsimp only
  rw [hf d d' hd']
  rfl

theorem onPart_mono {σ τ : Type} {put : τ → σ} {r r' : Partial τ} {s : σ} (hr : ∀ t, r = .ok t → r' = .ok t)
    (h : onPart put r = .ok s) : onPart put r' = .ok s := by
  obtain ⟨t, ht, rfl⟩ := onPart_ok h
  rw [hr t ht]
  rfl

/-- A node that is read with some memory is read the same with plenty. -/
theorem processNode_mono {g g' : Globals φ} (hnames : SameNames names alloc)
    (h : processNode fl alloc node g = .ok g') : processNode fl (plenty names) node g = .ok g' := by
  unfold processNode at h ⊢
  by_cases htext : node.type = .text ∨ node.type = .significant_whitespace
  · rwa [if_pos htext] at h ⊢
  rw [if_neg htext] at h ⊢
  by_cases hthermal : node.isElement "thermal_device" = true
  · rw [if_pos hthermal] at h ⊢
    split at h
    · exact h
    · cases h
  rw [if_neg hthermal] at h ⊢
  by_cases hthermalEnd : node.isEnd "thermal_device" = true
  · rwa [if_pos hthermalEnd] at h ⊢
  rw [if_neg hthermalEnd] at h ⊢
  by_cases hcooling : node.isElement "cooling_device" = true
  · rw [if_pos hcooling] at h ⊢
    split at h
    · exact h
    · cases h
  rw [if_neg hcooling] at h ⊢
  by_cases hcoolingEnd : node.isEnd "cooling_device" = true
  · rwa [if_pos hcoolingEnd] at h ⊢
  rw [if_neg hcoolingEnd] at h ⊢
  by_cases hcpus : node.isElement "cpu_usages" = true
  · rw [if_pos hcpus] at h ⊢
    split at h
    · cases h
    · split at h
      · exact h
      · cases h
  rw [if_neg hcpus] at h ⊢
  by_cases hprop : g.platform_data.flag = true ∧ node.isElement "thermal-prop" = true
  · rw [if_pos hprop] at h ⊢
    exact onPart_mono (fun t => updateCurrent_mono fun d d' => parseThermProp_mono hnames) h
  rw [if_neg hprop] at h ⊢
  by_cases hprop' : g.cooling_data.flag = true ∧ node.isElement "cooling-prop" = true
  · rw [if_pos hprop'] at h ⊢
    exact onPart_mono (fun t => updateCurrent_mono fun d d' => parseCoolProp_mono) h
  rwa [if_neg hprop'] at h ⊢

end

theorem processNodes_mono {allocs : Nat → Alloc} {nodes : List Node} {g g' : Globals φ}
    (hnames : ∀ n, SameNames names (allocs n)) (h : processNodes fl allocs g nodes = .ok g') :
    processNodes fl (fun _ => plenty names) g nodes = .ok g' := by
  induction nodes generalizing allocs g with
  | nil => exact h
  | cons node nodes ih =>
    rw [processNodes] at h ⊢
    split at h
    case h_1 => cases h
    case h_2 g₁ h₁ =>
      rw [processNode_mono (hnames 0) h₁]
      exact ih (fun n => hnames (n + 1)) h

end

/-! ## The table of a document -/

section

variable {D : Type} {fresh : Option D → D} {update : Node → D → Option D} {device prop : String}

theorem opsOf_append (first second : List Node) :
    opsOf device prop (first ++ second) = opsOf device prop first ++ opsOf device prop second :=
  List.filterMap_append

theorem opOf_leaf (l : Leaf) : opOf device prop ⟨l.type, "--", []⟩ = none := by
  cases l <;> rfl

theorem opsOf_leaf (l : Leaf) (rest : Forest) :
    opsOf device prop (Forest.leaf l rest).nodes = opsOf device prop rest.nodes := by
  unfold opsOf
  rw [Forest.nodes, List.filterMap_cons_none (opOf_leaf l)]

theorem opOf_tag (name : String) (attribs : List (String × String)) :
    opOf device prop (tag name attribs) =
      if name = device then some .start else if name = prop then some (.prop (tag prop attribs)) else none := by
  unfold opOf tag
  by_cases hdevice : name = device
  · simp [Node.isElement, hdevice]
  · by_cases hprop : name = prop
    · subst hprop
      simp [Node.isElement, Node.isEnd, hdevice]
    · simp [Node.isElement, Node.isEnd, hdevice, hprop]

theorem opOf_endTag (name : String) : opOf device prop (endTag name) = if name = device then some .stop else none := by
  unfold opOf endTag
  by_cases hdevice : name = device <;> simp [Node.isElement, Node.isEnd, hdevice]

/-- The operations of an element that is no device. -/
theorem opsOf_elem {name : String} (hname : name ≠ device) (attribs : List (String × String)) (content rest : Forest) :
    opsOf device prop (Forest.elem name attribs content rest).nodes =
      (if name = prop then [.prop (tag prop attribs)] else []) ++
        (opsOf device prop content.nodes ++ opsOf device prop rest.nodes) := by
  have hend : opsOf device prop (endTag name :: rest.nodes) = opsOf device prop rest.nodes :=
    List.filterMap_cons_none (by rw [opOf_endTag, if_neg hname])
  rw [Forest.nodes, ← hend, ← opsOf_append]
  by_cases hprop : name = prop
  · rw [if_pos hprop]
    exact List.filterMap_cons_some (by rw [opOf_tag, if_neg hname, if_pos hprop])
  · rw [if_neg hprop]
    exact List.filterMap_cons_none (by rw [opOf_tag, if_neg hname, if_neg hprop])

theorem opsOf_device (attribs : List (String × String)) (content rest : Forest) :
    opsOf device prop (Forest.elem device attribs content rest).nodes =
      .start :: (opsOf device prop content.nodes ++ .stop :: opsOf device prop rest.nodes) := by
  have hend : opsOf device prop (endTag device :: rest.nodes) = .stop :: opsOf device prop rest.nodes :=
    List.filterMap_cons_some (by rw [opOf_endTag, if_pos rfl])
  rw [Forest.nodes, ← hend, ← opsOf_append]
  exact List.filterMap_cons_some (by rw [opOf_tag, if_pos rfl])

theorem opsOf_empty {name : String} (hname : name ≠ device) (attribs : List (String × String)) (rest : Forest) :
    opsOf device prop (Forest.empty name attribs rest).nodes =
      (if name = prop then [.prop (tag prop attribs)] else []) ++ opsOf device prop rest.nodes := by
  rw [Forest.nodes]
  by_cases hprop : name = prop
  · rw [if_pos hprop]
    exact List.filterMap_cons_some (by rw [opOf_tag, if_neg hname, if_pos hprop])
  · rw [if_neg hprop]
    exact List.filterMap_cons_none (by rw [opOf_tag, if_neg hname, if_neg hprop])

theorem opsOf_empty_device (attribs : List (String × String)) (rest : Forest) :
    opsOf device prop (Forest.empty device attribs rest).nodes = .start :: opsOf device prop rest.nodes := by
  rw [Forest.nodes]
  exact List.filterMap_cons_some (by rw [opOf_tag, if_pos rfl])

/-- Without a device there are only properties. -/
theorem opsOf_props {f : Forest} (hempties : f.empties device = 0) (hdevices : f.devices device = []) :
    opsOf device prop f.nodes = (f.tags prop).map .prop := by
  induction f with
  | nil => rfl
  | leaf l rest ih => exact (opsOf_leaf l rest).trans (ih hempties hdevices)
  | empty name attribs rest ih =>
    obtain ⟨hname, hrest⟩ := Nat.add_eq_zero_iff.mp hempties
    rw [opsOf_empty (fun h => absurd hname (by rw [if_pos h]; decide)), ih hrest hdevices, Forest.tags]
    split <;> rfl
  | elem name attribs content rest ihc ihr =>
    obtain ⟨hcontent, hrest⟩ := Nat.add_eq_zero_iff.mp hempties
    obtain ⟨hname, hdevices⟩ := List.append_eq_nil_iff.mp hdevices
    obtain ⟨hdevices, hdevices'⟩ := List.append_eq_nil_iff.mp hdevices
    have hname : name ≠ device := fun h => by
      rw [if_pos h] at hname
      cases hname
    rw [opsOf_elem hname, ihc hcontent hdevices, ihr hrest hdevices', Forest.tags, List.map_append, List.map_append]
    split <;> rfl

/-- The table of whole entries. -/
def closedTable (done : List D) : Table D := ⟨if done = [] then none else some (done.map some), done.length, false⟩

theorem closed_closedTable (done : List D) : closed done (closedTable done).entries := by
  unfold closed closedTable
  by_cases h : done = []
  · rw [if_pos h, h]
    rfl
  · rw [if_neg h]
    rfl

/-- Between the devices a property does nothing. -/
theorem run_between (done : List D) (name : String) (p : Node) (ops : List (Op Node)) :
    run fresh update (closedTable done) ((if name = prop then [.prop p] else []) ++ ops) =
      run fresh update (closedTable done) ops := by
  split
  · exact run_cons _ _
  · rfl

/-- **One entry for each device.** -/
theorem run_forest {f : Forest} (hempties : f.empties device = 0)
    (hapart : ∀ c ∈ f.devices device, c.devices device = []) (done : List D) :
    run fresh update (closedTable done) (opsOf device prop f.nodes) =
      ((f.devices device).mapM fun c => entryOf fresh update (c.tags prop)).map fun ds => closedTable (done ++ ds) := by
  induction f generalizing done with
  | nil => exact congrArg (fun done => some (closedTable done)) (List.append_nil done).symm
  | leaf l rest ih => exact (congrArg _ (opsOf_leaf l rest)).trans (ih hempties hapart done)
  | empty name attribs rest ih =>
    obtain ⟨hname, hrest⟩ := Nat.add_eq_zero_iff.mp hempties
    rw [opsOf_empty (fun h => absurd hname (by rw [if_pos h]; decide)), run_between]
    exact ih hrest hapart done
  | elem name attribs content rest ihc ihr =>
    obtain ⟨hcontent, hrest⟩ := Nat.add_eq_zero_iff.mp hempties
    rw [Forest.devices] at hapart ⊢
    by_cases hname : name = device
    · subst hname
      rw [if_pos rfl] at hapart ⊢
      have hnone := hapart content List.mem_cons_self
      rw [hnone, List.nil_append, List.singleton_append] at hapart ⊢
      have hops (ps : List Node) (ops : List (Op Node)) :
          Op.start :: (ps.map .prop ++ .stop :: ops) = (.start :: (ps.map .prop ++ [.stop])) ++ ops := by simp
      rw [opsOf_device, opsOf_props hcontent hnone, hops, run_append, run_span (closed_closedTable done) rfl,
        List.mapM_cons]
      cases entryOf fresh update (content.tags prop) with
      | none => rfl
      | some d =>
        have hclosed : closedTable (done ++ [d]) = ⟨some ((done ++ [d]).map some), (done ++ [d]).length, false⟩ := by
          unfold closedTable
          rw [if_neg (by simp)]
        show run fresh update ⟨some ((done ++ [d]).map some), (done ++ [d]).length, false⟩ _ = _
        rw [← hclosed, ihr hrest (fun c hc => hapart c (List.mem_cons_of_mem _ hc)) (done ++ [d])]
        cases (rest.devices name).mapM fun c => entryOf fresh update (c.tags prop) with
        | none => rfl
        | some ds => exact congrArg (fun done => some (closedTable done)) (List.append_assoc done [d] ds)
    · rw [if_neg hname, List.nil_append] at hapart ⊢
      rw [opsOf_elem hname, run_between, run_append,
        ihc hcontent (fun c hc => hapart c (List.mem_append_left _ hc)) done, List.mapM_append]
      cases (content.devices device).mapM fun c => entryOf fresh update (c.tags prop) with
      | none => rfl
      | some ds =>
        show run fresh update (closedTable (done ++ ds)) _ = _
        rw [ihr hrest (fun c hc => hapart c (List.mem_append_right _ hc)) (done ++ ds)]
        cases (rest.devices device).mapM fun c => entryOf fresh update (c.tags prop) with
        | none => rfl
        | some ds' => exact congrArg (fun done => some (closedTable done)) (List.append_assoc done ds ds')

/-! ## Counting -/

theorem countP_between {q : Op Node → Bool} (hq : ∀ p, q (Op.prop p) = false) (name : String) (p : Node)
    (ops : List (Op Node)) : ((if name = prop then [Op.prop p] else []) ++ ops).countP q = ops.countP q := by
  split
  · rw [List.singleton_append, List.countP_cons_of_neg (by rw [hq]; exact Bool.false_ne_true)]
  · rfl

theorem countP_stops (f : Forest) : (opsOf device prop f.nodes).countP Op.isStop = (f.devices device).length := by
  induction f with
  | nil => rfl
  | leaf l rest ih => rw [opsOf_leaf, ih, Forest.devices]
  | empty name attribs rest ih =>
    rw [Forest.devices, ← ih]
    by_cases hname : name = device
    · subst hname
      rw [opsOf_empty_device]
      rfl
    · rw [opsOf_empty hname, countP_between isStop_prop]
  | elem name attribs content rest ihc ihr =>
    rw [Forest.devices, List.length_append, List.length_append, ← ihc, ← ihr]
    by_cases hname : name = device
    · subst hname
      rw [opsOf_device, if_pos rfl, List.countP_cons, List.countP_append, List.countP_cons]
      simp [Op.isStop]
      omega
    · rw [opsOf_elem hname, if_neg hname, countP_between isStop_prop, List.countP_append]
      simp

theorem countP_starts (f : Forest) :
    (opsOf device prop f.nodes).countP Op.isStart = (f.devices device).length + f.empties device := by
  induction f with
  | nil => rfl
  | leaf l rest ih => rw [opsOf_leaf, ih, Forest.devices, Forest.empties]
  | empty name attribs rest ih =>
    rw [Forest.devices, Forest.empties]
    by_cases hname : name = device
    · subst hname
      rw [opsOf_empty_device, if_pos rfl, List.countP_cons, ih, if_pos isStart_start]
      omega
    · rw [opsOf_empty hname, if_neg hname, countP_between isStart_prop, ih]
      omega
  | elem name attribs content rest ihc ihr =>
    rw [Forest.devices, Forest.empties, List.length_append, List.length_append]
    by_cases hname : name = device
    · subst hname
      rw [opsOf_device, if_pos rfl, List.countP_cons, List.countP_append, List.countP_cons, ihc, ihr]
      simp
      omega
    · rw [opsOf_elem hname, if_neg hname, countP_between isStart_prop, List.countP_append, ihc, ihr]
      simp
      omega

theorem elements_eq (f : Forest) : f.elements device = (f.devices device).length + f.empties device := by
  induction f with
  | nil => rfl
  | leaf l rest ih => exact ih
  | empty name attribs rest ih =>
    rw [Forest.elements, Forest.devices, Forest.empties, ih]
    omega
  | elem name attribs content rest ihc ihr =>
    rw [Forest.elements, Forest.devices, Forest.empties, ihc, ihr, List.length_append, List.length_append]
    split <;> simp <;> omega

theorem apart_between {open_ : Bool} {name : String} {p : Node} {ops : List (Op Node)} :
    Apart open_ ((if name = prop then [.prop p] else []) ++ ops) ↔ Apart open_ ops := by
  split <;> exact Iff.rfl

/-- Devices that are apart in the operations are apart in the document. -/
theorem apart_forest {f : Forest} (hempties : f.empties device = 0) (rest : List (Op Node)) :
    (Apart true (opsOf device prop f.nodes ++ rest) → f.devices device = [] ∧ Apart true rest) ∧
      (Apart false (opsOf device prop f.nodes ++ rest) →
        (∀ c ∈ f.devices device, c.devices device = []) ∧ Apart false rest) := by
  induction f generalizing rest with
  | nil => exact ⟨fun h => ⟨rfl, h⟩, fun h => ⟨fun c hc => absurd hc List.not_mem_nil, h⟩⟩
  | leaf l next ih =>
    rw [opsOf_leaf]
    exact ih hempties rest
  | empty name attribs next ih =>
    obtain ⟨hname, hnext⟩ := Nat.add_eq_zero_iff.mp hempties
    rw [opsOf_empty (fun h => absurd hname (by rw [if_pos h]; decide)), List.append_assoc, apart_between, apart_between]
    exact ih hnext rest
  | elem name attribs content next ihc ihr =>
    obtain ⟨hcontent, hnext⟩ := Nat.add_eq_zero_iff.mp hempties
    rw [Forest.devices]
    by_cases hname : name = device
    · subst hname
      rw [opsOf_device, if_pos rfl, List.cons_append, List.append_assoc, List.cons_append]
      refine ⟨fun h => absurd h.1 (by decide), fun h => ?_⟩
      obtain ⟨hnone, hstop⟩ := (ihc hcontent _).1 h.2
      obtain ⟨hapart, hrest⟩ := (ihr hnext rest).2 hstop
      refine ⟨fun c hc => ?_, hrest⟩
      rw [hnone, List.nil_append, List.singleton_append] at hc
      rcases List.mem_cons.mp hc with rfl | hc
      · exact hnone
      · exact hapart c hc
    · rw [opsOf_elem hname, if_neg hname, List.nil_append, List.append_assoc, List.append_assoc, apart_between,
        apart_between]
      refine ⟨fun h => ?_, fun h => ?_⟩
      · obtain ⟨hnone, h⟩ := (ihc hcontent _).1 h
        obtain ⟨hnone', h⟩ := (ihr hnext rest).1 h
        rw [hnone, hnone']
        exact ⟨rfl, h⟩
      · obtain ⟨hapart, h⟩ := (ihc hcontent _).2 h
        obtain ⟨hapart', h⟩ := (ihr hnext rest).2 h
        refine ⟨fun c hc => ?_, h⟩
        rcases List.mem_append.mp hc with hc | hc
        · exact hapart c hc
        · exact hapart' c hc

/-- **Whole entries.**  A table whose counted entries were all written, and as many as
there are elements, comes of devices that are not empty and stand apart. -/
theorem whole_table {f : Forest} {t : Table D}
    (h : run fresh update Table.empty (opsOf device prop f.nodes) = some t) (hcount : t.count = f.elements device)
    (hwhole : ∀ i < t.count, ∃ d, (t.entries.getD [])[i]? = some (some d)) :
    f.empties device = 0 ∧ ∀ c ∈ f.devices device, c.devices device = [] := by
  have hstops := run_count h
  rw [countP_stops, show (Table.empty : Table D).count = 0 from rfl] at hstops
  rw [elements_eq] at hcount
  have hempties : f.empties device = 0 := by omega
  have hwritten : t.count ≤ t.written := by
    have hlength : t.count ≤ (t.entries.getD []).length := by
      by_contra hlt
      obtain ⟨d, hd⟩ := hwhole (t.entries.getD []).length (by omega)
      rw [List.getElem?_eq_none (Nat.le_refl _)] at hd
      cases hd
    have hall : ∀ entry ∈ (t.entries.getD []).take t.count, entry.isSome = true := by
      intro entry hentry
      obtain ⟨i, hi⟩ := List.mem_iff_getElem?.mp hentry
      have hlt : i < t.count := by
        by_contra hge
        rw [List.getElem?_take_eq_none (by omega)] at hi
        cases hi
      obtain ⟨d, hd⟩ := hwhole i hlt
      rw [List.getElem?_take_of_lt hlt, hd] at hi
      rw [← Option.some.inj hi]
      rfl
    calc t.count = ((t.entries.getD []).take t.count).countP Option.isSome := by
          rw [List.countP_eq_length.mpr hall, List.length_take, Nat.min_eq_left hlength]
      _ ≤ t.written := (List.take_sublist _ _).countP_le
  obtain ⟨-, hlt⟩ := written_le (t := Table.empty) (fun hflag => (by cases hflag)) h
  rw [countP_starts, hempties] at hlt
  have hapart : Apart false (opsOf device prop f.nodes ++ []) := by
    rw [List.append_nil]
    by_contra hnot
    have := hlt hnot
    rw [show (Table.empty : Table D).written = 0 from rfl] at this
    omega
  exact ⟨hempties, ((apart_forest hempties []).2 hapart).1⟩

end

/-! ## Other orders -/

theorem Reorder.refl (f : Forest) : Reorder f f := by
  induction f with
  | nil => exact .nil
  | leaf l rest ih => exact .leaf l ih
  | empty name attribs rest ih => exact .empty name attribs ih
  | elem name attribs content rest ihc ihr =>
    by_cases hname : name = "thermal_device"
    · subst hname
      exact .device attribs rfl (.refl _) ihr
    · exact .elem name attribs hname ihc ihr

theorem Reorder.shape {f f' : Forest} (h : Reorder f f') : f'.shape = f.shape := by
  induction h with
  | nil => rfl
  | leaf l hr ih => rw [Forest.shape, Forest.shape, ih]
  | empty name attribs hr ih => rw [Forest.shape, Forest.shape, ih]
  | elem name attribs hname hc hr ihc ihr => rw [Forest.shape, Forest.shape, ihc, ihr]
  | device attribs hshape hprops hr ih => rw [Forest.shape, Forest.shape, hshape, ih]

/-- A node without what it says, if it is a property of a thermal device. -/
def erase (node : Node) : Node := if node.isElement "thermal-prop" then { node with attribs := [] } else node

theorem erase_tag (name : String) (attribs : List (String × String)) :
    erase (tag name attribs) = tag name (if name = "thermal-prop" then [] else attribs) := by
  unfold erase tag
  by_cases hname : name = "thermal-prop" <;> simp [Node.isElement, hname]

theorem nodes_shape (f : Forest) : f.shape.nodes = f.nodes.map erase := by
  induction f with
  | nil => rfl
  | leaf l rest ih =>
    rw [Forest.shape, Forest.nodes, Forest.nodes, List.map_cons, ih]
    cases l <;> rfl
  | empty name attribs rest ih => rw [Forest.shape, Forest.nodes, Forest.nodes, List.map_cons, ih, erase_tag]
  | elem name attribs content rest ihc ihr =>
    rw [Forest.shape, Forest.nodes, Forest.nodes, List.map_cons, List.map_append, List.map_cons, ihc, ihr, erase_tag]
    rfl

theorem devices_shape (device : String) (f : Forest) :
    f.shape.devices device = (f.devices device).map Forest.shape := by
  induction f with
  | nil => rfl
  | leaf l rest ih => exact ih
  | empty name attribs rest ih => exact ih
  | elem name attribs content rest ihc ihr =>
    rw [Forest.shape, Forest.devices, Forest.devices, ihc, ihr, List.map_append, List.map_append]
    split <;> rfl

theorem empties_shape (device : String) (f : Forest) : f.shape.empties device = f.empties device := by
  induction f with
  | nil => rfl
  | leaf l rest ih => exact ih
  | empty name attribs rest ih => rw [Forest.shape, Forest.empties, Forest.empties, ih]
  | elem name attribs content rest ihc ihr => rw [Forest.shape, Forest.empties, Forest.empties, ihc, ihr]

/-- A parse that does not look at the properties of thermal devices goes by the shape. -/
theorem foldlM_shape {σ : Type} {k : σ → Node → Option σ} (hk : ∀ s node, k s (erase node) = k s node) {f f' : Forest}
    (h : f'.shape = f.shape) (s : σ) : f'.nodes.foldlM k s = f.nodes.foldlM k s := by
  have herase (f : Forest) : f.shape.nodes.foldlM k s = f.nodes.foldlM k s := by
    rw [nodes_shape, List.foldlM_map]
    exact congrArg (fun k => f.nodes.foldlM k s) (funext fun s => funext fun node => hk s node)
  rw [← herase, h, herase]

theorem run_opsOf {D : Type} {fresh : Option D → D} {update : Node → D → Option D} {device prop : String} (t : Table D)
    (nodes : List Node) :
    run fresh update t (opsOf device prop nodes) = nodes.foldlM (opStep fresh update device prop) t := by
  induction nodes generalizing t with
  | nil => rfl
  | cons node nodes ih =>
    rw [run_opsOf_cons, List.foldlM_cons]
    exact congrArg _ (funext ih)

theorem isEnd_erase (node : Node) (name : String) : (erase node).isEnd name = node.isEnd name := by
  unfold erase
  split <;> rfl

theorem isElement_erase (node : Node) (name : String) : (erase node).isElement name = node.isElement name := by
  unfold erase
  split <;> rfl

theorem erase_eq {node : Node} {name : String} (h : node.isElement name = true) (hname : name ≠ "thermal-prop") :
    erase node = node := by
  unfold erase
  rw [if_neg]
  intro hprop
  exact hname ((isElement_iff.mp h).2.symm.trans (isElement_iff.mp hprop).2)

theorem opOf_erase (node : Node) :
    opOf "cooling_device" "cooling-prop" (erase node) = opOf "cooling_device" "cooling-prop" node := by
  unfold opOf
  rw [isElement_erase, isEnd_erase, isElement_erase]
  by_cases hprop : node.isElement "cooling-prop" = true
  · rw [erase_eq hprop (by decide)]
  · rw [if_neg hprop, if_neg hprop]

theorem cpusStep_erase (old : Option Int) (node : Node) : cpusStep old (erase node) = cpusStep old node := by
  unfold cpusStep
  rw [isElement_erase]
  by_cases hcpus : node.isElement "cpu_usages" = true
  · rw [erase_eq hcpus (by decide)]
  · rw [if_neg hcpus, if_neg hcpus]

/-- The cooling devices and the processors do not depend on the order. -/
theorem coolingRun_shape {f f' : Forest} (h : f'.shape = f.shape) (names : Int → Bool) (t : Table CoolingDesc) :
    coolingRun names t f'.nodes = coolingRun names t f.nodes := by
  unfold coolingRun
  rw [run_opsOf, run_opsOf]
  refine foldlM_shape (fun t node => ?_) h t
  unfold opStep
  rw [opOf_erase]

/-- Devices that stand apart stay so, with the same properties in another order. -/
theorem Reorder.devices {f f' : Forest} (h : Reorder f f')
    (hapart : ∀ c ∈ f.devices "thermal_device", c.devices "thermal_device" = []) :
    List.Forall₂ (fun c c' => c'.shape = c.shape ∧ (c'.tags "thermal-prop").Perm (c.tags "thermal-prop"))
      (f.devices "thermal_device") (f'.devices "thermal_device") := by
  induction h with
  | nil => exact .nil
  | leaf l hr ih => exact ih hapart
  | empty name attribs hr ih => exact ih hapart
  | elem name attribs hname hc hr ihc ihr =>
    rw [Forest.devices, if_neg hname, List.nil_append] at hapart
    simp only [Forest.devices, if_neg hname, List.nil_append]
    exact List.rel_append (ihc fun c hc => hapart c (List.mem_append_left _ hc))
      (ihr fun c hc => hapart c (List.mem_append_right _ hc))
  | @device attribs content content' rest rest' hshape hprops hr ih =>
    rw [Forest.devices, if_pos rfl, List.singleton_append] at hapart
    have hnone := hapart content List.mem_cons_self
    have hnone' : content'.devices "thermal_device" = [] := by
      have := devices_shape "thermal_device" content'
      rw [hshape, devices_shape, hnone] at this
      exact List.map_eq_nil_iff.mp this.symm
    simp only [Forest.devices, if_true, hnone, hnone', List.singleton_append, List.nil_append]
    exact .cons ⟨hshape, hprops⟩
      (ih fun c hc => hapart c (List.mem_cons_of_mem _ (List.mem_append_right _ hc)))

/-- A node that starts a property. -/
def IsProp (node : Node) : Prop := ∃ attribs, node = tag "thermal-prop" attribs

theorem isProp_tags {f : Forest} {p : Node} (h : p ∈ f.tags "thermal-prop") : IsProp p := by
  induction f with
  | nil => cases h
  | leaf l rest ih => exact ih h
  | empty name attribs rest ih =>
    rcases List.mem_append.mp h with h | h
    · split at h
      · exact ⟨attribs, List.mem_singleton.mp h⟩
      · cases h
    · exact ih h
  | elem name attribs content rest ihc ihr =>
    rcases List.mem_append.mp h with h | h
    · split at h
      · exact ⟨attribs, List.mem_singleton.mp h⟩
      · cases h
    · rcases List.mem_append.mp h with h | h
      · exact ihc h
      · exact ihr h

/-- Any properties can stand in the places of those there are. -/
theorem exists_refill (f : Forest) (ps : List Node) (hlength : ps.length = (f.tags "thermal-prop").length)
    (hps : ∀ p ∈ ps, IsProp p) : ∃ f' : Forest, f'.shape = f.shape ∧ f'.tags "thermal-prop" = ps := by
  induction f generalizing ps with
  | nil =>
    obtain rfl := List.length_eq_zero_iff.mp hlength
    exact ⟨.nil, rfl, rfl⟩
  | leaf l rest ih =>
    obtain ⟨rest', hshape, htags⟩ := ih ps hlength hps
    exact ⟨.leaf l rest', congrArg (Forest.leaf l) hshape, htags⟩
  | empty name attribs rest ih =>
    by_cases hname : name = "thermal-prop"
    · subst hname
      cases ps with
      | nil => simp [Forest.tags] at hlength
      | cons p ps =>
        obtain ⟨attribs', rfl⟩ := hps p List.mem_cons_self
        obtain ⟨rest', hshape, rfl⟩ :=
          ih ps (by simpa [Forest.tags] using hlength) fun p hp => hps p (List.mem_cons_of_mem _ hp)
        refine ⟨.empty "thermal-prop" attribs' rest', ?_, ?_⟩
        · rw [Forest.shape, Forest.shape, hshape, if_pos rfl, if_pos rfl]
        · rw [Forest.tags, if_pos rfl, List.singleton_append]
    · obtain ⟨rest', hshape, htags⟩ := ih ps (by simpa [Forest.tags, hname] using hlength) hps
      refine ⟨.empty name attribs rest', ?_, ?_⟩
      · rw [Forest.shape, Forest.shape, hshape]
      · rw [Forest.tags, if_neg hname, List.nil_append, htags]
  | elem name attribs content rest ihc ihr =>
    have hsplit (ps : List Node)
        (hlength : ps.length = (content.tags "thermal-prop" ++ rest.tags "thermal-prop").length)
        (hps : ∀ p ∈ ps, IsProp p) :
        ∃ content' rest' : Forest, content'.shape = content.shape ∧ rest'.shape = rest.shape ∧
          content'.tags "thermal-prop" ++ rest'.tags "thermal-prop" = ps := by
      rw [List.length_append] at hlength
      obtain ⟨content', hshape, htags⟩ := ihc (ps.take (content.tags "thermal-prop").length)
        (by rw [List.length_take]; omega) fun p hp => hps p (List.mem_of_mem_take hp)
      obtain ⟨rest', hshape', htags'⟩ := ihr (ps.drop (content.tags "thermal-prop").length)
        (by rw [List.length_drop]; omega) fun p hp => hps p (List.mem_of_mem_drop hp)
      exact ⟨content', rest', hshape, hshape', by rw [htags, htags', List.take_append_drop]⟩
    by_cases hname : name = "thermal-prop"
    · subst hname
      cases ps with
      | nil => simp [Forest.tags] at hlength
      | cons p ps =>
        obtain ⟨attribs', rfl⟩ := hps p List.mem_cons_self
        obtain ⟨content', rest', hshape, hshape', rfl⟩ := hsplit ps (by
          rw [Forest.tags, if_pos rfl, List.length_append, List.length_cons] at hlength
          simpa [Nat.add_comm 1] using hlength) fun p hp => hps p (List.mem_cons_of_mem _ hp)
        refine ⟨.elem "thermal-prop" attribs' content' rest', ?_, ?_⟩
        · rw [Forest.shape, Forest.shape, hshape, hshape', if_pos rfl, if_pos rfl]
        · rw [Forest.tags, if_pos rfl, List.singleton_append]
    · obtain ⟨content', rest', hshape, hshape', rfl⟩ := hsplit ps (by simpa [Forest.tags, hname] using hlength) hps
      refine ⟨.elem name attribs content' rest', ?_, ?_⟩
      · rw [Forest.shape, Forest.shape, hshape, hshape']
      · rw [Forest.tags, if_neg hname, List.nil_append]

/-- Any orders of the properties of the devices are those of a document. -/
theorem exists_reorder {f : Forest} (hapart : ∀ c ∈ f.devices "thermal_device", c.devices "thermal_device" = [])
    (order : Forest → List Node) (horder : ∀ c ∈ f.devices "thermal_device", (order c).Perm (c.tags "thermal-prop")) :
    ∃ f', Reorder f f' ∧
      (f'.devices "thermal_device").map (Forest.tags "thermal-prop") = (f.devices "thermal_device").map order := by
  induction f with
  | nil => exact ⟨.nil, .nil, rfl⟩
  | leaf l rest ih =>
    obtain ⟨rest', hr, hmap⟩ := ih hapart horder
    exact ⟨.leaf l rest', .leaf l hr, hmap⟩
  | empty name attribs rest ih =>
    obtain ⟨rest', hr, hmap⟩ := ih hapart horder
    exact ⟨.empty name attribs rest', .empty name attribs hr, hmap⟩
  | elem name attribs content rest ihc ihr =>
    rw [Forest.devices] at hapart horder ⊢
    by_cases hname : name = "thermal_device"
    · subst hname
      rw [if_pos rfl, List.singleton_append] at hapart horder ⊢
      have hnone := hapart content List.mem_cons_self
      have hperm := horder content List.mem_cons_self
      rw [hnone, List.nil_append] at hapart horder ⊢
      obtain ⟨content', hshape, htags⟩ := exists_refill content (order content) hperm.length_eq
        fun p hp => isProp_tags (hperm.subset hp)
      obtain ⟨rest', hr, hmap⟩ := ihr (fun c hc => hapart c (List.mem_cons_of_mem _ hc))
        fun c hc => horder c (List.mem_cons_of_mem _ hc)
      have hnone' : content'.devices "thermal_device" = [] := by
        have := devices_shape "thermal_device" content'
        rw [hshape, devices_shape, hnone] at this
        exact List.map_eq_nil_iff.mp this.symm
      refine ⟨.elem "thermal_device" attribs content' rest', .device attribs hshape (htags ▸ hperm) hr, ?_⟩
      rw [Forest.devices, if_pos rfl, hnone', List.nil_append, List.singleton_append, List.map_cons, List.map_cons,
        htags, hmap]
    · rw [if_neg hname, List.nil_append] at hapart horder ⊢
      obtain ⟨content', hc, hmap⟩ := ihc (fun c hc => hapart c (List.mem_append_left _ hc))
        fun c hc => horder c (List.mem_append_left _ hc)
      obtain ⟨rest', hr, hmap'⟩ := ihr (fun c hc => hapart c (List.mem_append_right _ hc))
        fun c hc => horder c (List.mem_append_right _ hc)
      refine ⟨.elem name attribs content' rest', .elem name attribs hname hc hr, ?_⟩
      rw [Forest.devices, if_neg hname, List.nil_append, List.map_append, List.map_append, hmap, hmap']

/-! ## Complete parses -/

theorem mapM_eq_some {α β : Type} {F : α → Option β} {l : List α} {bs : List β} (h : l.mapM F = some bs) :
    l.map F = bs.map some := by
  induction l generalizing bs with
  | nil =>
    obtain rfl := Option.some.inj h
    rfl
  | cons a l ih =>
    rw [List.mapM_cons] at h
    obtain ⟨b, hb, h⟩ := Option.bind_eq_some_iff.mp h
    obtain ⟨bs', hbs', h⟩ := Option.bind_eq_some_iff.mp h
    obtain rfl := Option.some.inj h
    rw [List.map_cons, List.map_cons, hb, ih hbs']

section

variable {φ : Type} {fl : Floats φ} {names : Int → Bool}

/-- A type is written exactly if a property has one. -/
theorem coolUpdate_type {p : Node} {d d' : CoolingDesc} (h : coolUpdate names p d = some d') :
    d'.type = none ↔ d.type = none ∧ p.getAttribute "type" = none := by
  have hok : parseCoolProp (plenty names) p d = .ok d' := by
    unfold coolUpdate at h
    cases hparse : parseCoolProp (plenty names) p d with
    | error stop =>
      rw [hparse] at h
      cases h
    | ok d₁ =>
      rw [hparse] at h
      rw [Option.some.inj h]
  have hcopy {name : String} {get : CoolingDesc → Option String} {put : CoolingDesc → String → CoolingDesc}
      {d d' : CoolingDesc} (h : copyAttribute (plenty names) p name get put d = .ok d')
      (hput : ∀ d c, (put d c).type = d.type) : d'.type = d.type := by
    unfold copyAttribute at h
    split at h
    · obtain rfl := Except.ok.inj h
      exact hput _ _
    · obtain rfl := Except.ok.inj h
      rfl
  unfold parseCoolProp at hok
  obtain ⟨d₁, h₁, hok⟩ := bind_ok hok
  obtain ⟨d₂, h₂, hok⟩ := bind_ok hok
  rw [hcopy hok fun _ _ => rfl, ← hcopy h₁ fun _ _ => rfl]
  unfold coolingType at h₂
  cases htype : p.getAttribute "type" with
  | none =>
    rw [htype] at h₂
    obtain rfl := Except.ok.inj h₂
    simp
  | some c =>
    rw [htype] at h₂
    dsimp only at h₂
    split at h₂
    · obtain rfl := Except.ok.inj h₂
      simp
    · cases h₂

theorem cooling_type_iff {props : List Node} {d : CoolingDesc}
    (h : entryOf freshCooling (coolUpdate names) props = some d) :
    d.type ≠ none ↔ ∃ p ∈ props, p.getAttribute "type" ≠ none := by
  have hnone : ∀ (props : List Node) (d d' : CoolingDesc), props.foldlM (fun d p => coolUpdate names p d) d = some d' →
      (d'.type = none ↔ d.type = none ∧ ∀ p ∈ props, p.getAttribute "type" = none) := by
    intro props
    induction props with
    | nil =>
      intro d d' h
      obtain rfl := Option.some.inj h
      simp
    | cons p props ih =>
      intro d d' h
      rw [List.foldlM_cons] at h
      obtain ⟨d₁, h₁, h⟩ := Option.bind_eq_some_iff.mp h
      rw [ih d₁ d' h, coolUpdate_type h₁, List.forall_mem_cons, and_assoc]
  rw [ne_eq, hnone props _ d h]
  simp [freshCooling]

theorem thermal_multiplier_iff {props : List Node} {d : ThermalDesc φ}
    (h : entryOf (freshThermal fl) (thermUpdate fl names) props = some d) :
    d.multiplier ≠ none ↔ ∃ p ∈ props, p.getAttribute "multiplier" ≠ none := by
  rw [(entryOf_eq_some h).1]
  show lastWrite (nodeMultiplier fl) props ≠ none ↔ _
  rw [ne_eq, lastWrite_eq_none]
  simp [nodeMultiplier]

/-- The entries of devices that stand apart. -/
theorem entries_of_apart {D : Type} {fresh : Option D → D} {update : Node → D → Option D} {device prop : String}
    {f : Forest} {t : Table D} (h : run fresh update Table.empty (opsOf device prop f.nodes) = some t)
    (hempties : f.empties device = 0) (hapart : ∀ c ∈ f.devices device, c.devices device = []) :
    ∃ ds, (f.devices device).mapM (fun c => entryOf fresh update (c.tags prop)) = some ds ∧ t = closedTable ds := by
  rw [show (Table.empty : Table D) = closedTable [] from rfl, run_forest hempties hapart] at h
  obtain ⟨ds, hds, rfl⟩ := Option.map_eq_some_iff.mp h
  exact ⟨ds, hds, by rw [List.nil_append]⟩

/-- A counted entry and its device. -/
theorem closedTable_entry {D : Type} {ds : List D} {i : Nat} {d : D} :
    ((closedTable ds).entries.getD [])[i]? = some (some d) ↔ ds[i]? = some d := by
  rw [closed_closedTable ds, List.getElem?_map]
  simp

/-- What each counted entry has, its device has. -/
theorem whole_iff {D : Type} {F : Forest → Option D} {devices : List Forest} {ds : List D} {P : D → Prop}
    {Q : Forest → Prop} (h : devices.mapM F = some ds) (hPQ : ∀ c d, F c = some d → (P d ↔ Q c)) :
    (∀ i < (closedTable ds).count, ∃ d, ((closedTable ds).entries.getD [])[i]? = some (some d) ∧ P d) ↔
      ∀ c ∈ devices, Q c := by
  have hmap := mapM_eq_some h
  have hlength : devices.length = ds.length := by
    have := congrArg List.length hmap
    rwa [List.length_map, List.length_map] at this
  have hentry (i : Nat) : (devices[i]?).map F = (ds[i]?).map some := by
    rw [← List.getElem?_map, hmap, List.getElem?_map]
  constructor
  · intro hwhole c hc
    obtain ⟨i, hi⟩ := List.mem_iff_getElem?.mp hc
    obtain ⟨hlt, -⟩ := List.getElem?_eq_some_iff.mp hi
    obtain ⟨d, hd, hP⟩ := hwhole i (show i < ds.length from hlength ▸ hlt)
    have := hentry i
    rw [hi, closedTable_entry.mp hd] at this
    exact (hPQ c d (Option.some.inj this)).mp hP
  · intro hQ i hi
    have hi : i < ds.length := hi
    have := hentry i
    rw [List.getElem?_eq_getElem (hlength ▸ hi), List.getElem?_eq_getElem hi] at this
    exact ⟨ds[i], closedTable_entry.mpr (List.getElem?_eq_getElem hi),
      (hPQ _ _ (Option.some.inj this)).mpr (hQ _ (List.getElem_mem _))⟩

theorem streamFile_ok_iff {allocs : Nat → Alloc} {nodes : List Node} {g g' : Globals φ} :
    streamFile fl allocs (some ⟨nodes, true⟩) g = .ok g' ↔ processNodes fl allocs g nodes = .ok g' := by
  unfold streamFile
  dsimp only
  cases processNodes fl allocs g nodes <;> simp

theorem closedTable_inj {D : Type} {ds ds' : List D} (h : closedTable ds = closedTable ds') : ds = ds' := by
  have hmap : ds.map some = ds'.map some := by
    rw [← closed_closedTable ds, h, closed_closedTable ds']
  exact List.map_injective_iff.mpr (Option.some_injective D) hmap

/-- Documents of one shape have the same devices in the same places. -/
theorem apart_of_shape {f f' : Forest} {device : String} (h : f'.shape = f.shape)
    (hapart : ∀ c ∈ f.devices device, c.devices device = []) : ∀ c ∈ f'.devices device, c.devices device = [] := by
  intro c' hc'
  have hdevices : (f'.devices device).map Forest.shape = (f.devices device).map Forest.shape := by
    rw [← devices_shape, h, devices_shape]
  obtain ⟨c, hc, hshape⟩ := List.mem_map.mp (hdevices ▸ List.mem_map_of_mem hc')
  have := devices_shape device c'
  rw [← hshape, devices_shape, hapart c hc] at this
  exact List.map_eq_nil_iff.mp this.symm

theorem empties_of_shape {f f' : Forest} (h : f'.shape = f.shape) (device : String) :
    f'.empties device = f.empties device := by
  rw [← empties_shape, h, empties_shape]

theorem map_eq_of_forall₂ {α β : Type} {R : α → α → Prop} {F : α → β} {l l' : List α} (h : List.Forall₂ R l l')
    (hF : ∀ a ∈ l, ∀ b, R a b → F b = F a) : l'.map F = l.map F := by
  induction h with
  | nil => rfl
  | cons hab h ih =>
    rw [List.map_cons, List.map_cons, hF _ List.mem_cons_self _ hab,
      ih fun a ha => hF a (List.mem_cons_of_mem _ ha)]

theorem mapM_of_map {α β : Type} {F : α → Option β} {l l' : List α} (h : l'.map F = l.map F) :
    l'.mapM F = l.mapM F := by
  have hid (l : List α) : (l.map F).mapM id = l.mapM F := List.mapM_map
  rw [← hid, h, hid]

/-- **Any order of the properties, in a document with devices apart.** -/
theorem any_order_iff {f : Forest} {g : Globals φ}
    (h : processNodes fl (fun _ => plenty names) Globals.initial f.nodes = .ok g)
    (hempties : f.empties "thermal_device" = 0)
    (hapart : ∀ c ∈ f.devices "thermal_device", c.devices "thermal_device" = []) :
    (∀ f', Reorder f f' → streamFile fl (fun _ => plenty names) (some ⟨f'.nodes, true⟩) Globals.initial = .ok g) ↔
      ∀ c ∈ f.devices "thermal_device", PropsAgree fl names (c.tags "thermal-prop") := by
  obtain ⟨ht, hc, hn⟩ := processNodes_iff.mp h
  obtain ⟨ds, hds, hpd⟩ := entries_of_apart ht hempties hapart
  constructor
  · intro hany c hc
    rw [← orderFree_iff]
    intro ps hps
    -- only this device gets another order
    obtain ⟨f', hr, hmap⟩ := exists_reorder hapart (fun c' => if c' = c then ps else c'.tags "thermal-prop")
      fun c' _ => by
        split
        case isTrue hc' => exact hc' ▸ hps
        case isFalse => exact .refl _
    obtain ⟨ht', -, -⟩ := processNodes_iff.mp (streamFile_ok_iff.mp (hany f' hr))
    obtain ⟨ds', hds', hpd'⟩ := entries_of_apart ht' ((empties_of_shape hr.shape _).trans hempties)
      (apart_of_shape hr.shape hapart)
    obtain rfl := closedTable_inj (hpd.symm.trans hpd')
    have hsame : ((f.devices "thermal_device").map fun c' => entryOf (freshThermal fl) (thermUpdate fl names)
          (if c' = c then ps else c'.tags "thermal-prop")) =
        (f.devices "thermal_device").map fun c' => entryOf (freshThermal fl) (thermUpdate fl names)
          (c'.tags "thermal-prop") := by
      rw [mapM_eq_some hds, ← mapM_eq_some hds']
      have := congrArg (List.map (entryOf (freshThermal fl) (thermUpdate fl names))) hmap
      rw [List.map_map, List.map_map] at this
      exact this.symm
    have hentry := List.map_inj_left.mp hsame c hc
    rw [if_pos rfl] at hentry
    obtain ⟨d, -, hd⟩ := List.mem_map.mp (mapM_eq_some hds ▸ List.mem_map_of_mem hc)
    rw [hentry, ← hd, (entryOf_eq_some hd.symm).1]
  · intro hagree f' hr
    refine streamFile_ok_iff.mpr (processNodes_iff.mpr ⟨?_, ?_, ?_⟩)
    · unfold thermalRun
      show run _ _ (closedTable []) _ = _
      rw [run_forest ((empties_of_shape hr.shape _).trans hempties) (apart_of_shape hr.shape hapart),
        mapM_of_map (map_eq_of_forall₂ (hr.devices hapart) fun c hc c' hcc' => ?_), hds, hpd]
      · rfl
      · have hfree := (orderFree_iff fl names (c.tags "thermal-prop")).mpr (hagree c hc)
        rw [hfree _ hcc'.2, hfree _ (.refl _)]
    · rw [coolingRun_shape hr.shape]
      exact hc
    · rw [foldlM_shape cpusStep_erase hr.shape]
      exact hn

/-- **Complete parses.** -/
theorem complete_iff_regular (fl : Floats φ) (names : Int → Bool) (allocs : Nat → Alloc) (f : Forest) (g : Globals φ)
    (hnames : ∀ n, SameNames names (allocs n)) (h : streamFile fl allocs (some ⟨f.nodes, true⟩) Globals.initial = .ok g) :
    Complete fl names f g ↔ Regular fl names f := by
  have hnodes := processNodes_mono hnames (streamFile_ok_iff.mp h)
  obtain ⟨ht, hc, -⟩ := processNodes_iff.mp hnodes
  constructor
  · intro hcomplete
    obtain ⟨hempties, hapart⟩ := whole_table ht hcomplete.platform_data_count fun i hi => by
      obtain ⟨d, hd, -⟩ := hcomplete.platform_data i hi
      exact ⟨d, hd⟩
    obtain ⟨hempties', hapart'⟩ := whole_table hc hcomplete.cooling_data_count fun i hi => by
      obtain ⟨d, hd, -⟩ := hcomplete.cooling_data i hi
      exact ⟨d, hd⟩
    obtain ⟨ds, hds, hpd⟩ := entries_of_apart ht hempties hapart
    obtain ⟨ds', hds', hcd⟩ := entries_of_apart hc hempties' hapart'
    refine ⟨⟨hempties, hempties'⟩, hapart, hapart', ?_, ?_,
      (any_order_iff hnodes hempties hapart).mp hcomplete.any_order⟩
    · exact (whole_iff hds fun c d hd => thermal_multiplier_iff hd).mp (hpd ▸ hcomplete.platform_data)
    · exact (whole_iff hds' fun c d hd => cooling_type_iff hd).mp (hcd ▸ hcomplete.cooling_data)
  · intro hregular
    obtain ⟨hempties, hempties'⟩ := hregular.not_empty
    obtain ⟨ds, hds, hpd⟩ := entries_of_apart ht hempties hregular.apart
    obtain ⟨ds', hds', hcd⟩ := entries_of_apart hc hempties' hregular.cooling_apart
    have hcount := run_count ht
    have hcount' := run_count hc
    refine ⟨?_, ?_, ?_, ?_, (any_order_iff hnodes hempties hregular.apart).mpr hregular.agree⟩
    · rw [hcount, countP_stops, elements_eq, hempties]
      exact Nat.zero_add _
    · rw [hcount', countP_stops, elements_eq, hempties']
      exact Nat.zero_add _
    · rw [hpd]
      exact (whole_iff hds fun c d hd => thermal_multiplier_iff hd).mpr hregular.multiplier
    · rw [hcd]
      exact (whole_iff hds' fun c d hd => cooling_type_iff hd).mpr hregular.type

/-- A device with the properties given. -/
def deviceDoc (props : List (List (String × String))) : Forest :=
  .elem "thermalhal" [] (.elem "thermal_device" []
    (props.foldr (fun attribs rest => .empty "thermal-prop" attribs rest) .nil) .nil) .nil

/-- One property for everything. -/
def wholeDevice : Forest :=
  deviceDoc [[("name", "CPU"), ("sensor-label", "CPU-therm"), ("multiplier", "1"), ("cores", "2")]]

/-- The name and the cores in two properties. -/
def splitDevice : Forest :=
  deviceDoc [[("name", "CPU"), ("sensor-label", "CPU-therm"), ("multiplier", "1")], [("cores", "2")]]

def cpuDesc : ThermalDesc Int :=
  { freshThermal wholeFloats none with
    name := some "CPU"
    sensor_label := some "CPU-therm"
    multiplier := some 1
    cores := 2
    core_names := some ["CPU0", "CPU1"]
    read_cluster := true }

def cpuGlobals : Globals Int := ⟨⟨some [some cpuDesc], 1, false⟩, .empty, none⟩

/-- One property agrees with itself. -/
theorem propsAgree_singleton {p : Node} (hname : p.getAttribute "name" ≠ none) : PropsAgree fl names [p] := by
  have hself {β : Type} (f : Node → Option β) : ∀ q ∈ [p], ∀ r ∈ [p], Agree f q r := by
    intro q hq r hr x hx y hy
    rw [List.mem_singleton.mp hq] at hx
    rw [List.mem_singleton.mp hr] at hy
    exact Option.some.inj (hx.symm.trans hy)
  refine ⟨fun q hq _ => ?_, hself _, hself _, hself _, hself _, hself _, hself _⟩
  rwa [List.mem_singleton.mp hq]

theorem complete_of_whole_device : Complete wholeFloats (fun _ => true) wholeDevice cpuGlobals := by
  have hnames : ∀ n : Nat, SameNames (fun _ => true) ((fun _ => plentyOfMemory) n) := fun _ _ _ => rfl
  refine (complete_iff_regular wholeFloats (fun _ => true) (fun _ => plentyOfMemory) wholeDevice cpuGlobals hnames
    (by decide)).mpr ⟨by decide, by decide, by decide, by decide, by decide, fun c hc => ?_⟩
  obtain rfl := List.mem_singleton.mp hc
  exact propsAgree_singleton (by decide)

/-- The cores before the name: the name is null. -/
theorem cores_before_name :
    ¬ ∀ (fl : Floats Int) (names : Int → Bool) (allocs : Nat → Alloc) (f : Forest) (g : Globals Int)
      (_ : ∀ n, SameNames names (allocs n)) (_ : streamFile fl allocs (some ⟨f.nodes, true⟩) Globals.initial = .ok g),
      Complete fl names f g := by
  intro h
  have hcomplete := h wholeFloats (fun _ => true) (fun _ => plentyOfMemory) splitDevice cpuGlobals (fun _ _ _ => rfl)
    (by decide)
  have hreorder : Reorder splitDevice
      (deviceDoc [[("cores", "2")], [("name", "CPU"), ("sensor-label", "CPU-therm"), ("multiplier", "1")]]) :=
    .elem _ _ (by decide) (.device _ rfl (.swap _ _ _) .nil) .nil
  have := hcomplete.any_order _ hreorder
  revert this
  decide

end

end MochaHal.Thermal
