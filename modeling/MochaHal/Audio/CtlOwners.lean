import MochaHal.Audio.ConfigParser

/-! Where the controls of a configuration file end up.  The handlers find the array of a
control through the `current` pointers.  Running them over the events of a document is
the same as walking its tree (`runs_walk`), and the walk says which array every control
joins: `current.path` is set by `<init>` and cleared by the end of a `<path>` only, so the
controls of the cases before the first path join the initial settings
(`parseDocument_placed`). -/

namespace MochaHal.Audio.Parser
open MochaHal.Entries

/-! ## What a document asks for -/

/-- The elements of a forest with a given name: their attributes and content. -/
def Forest.named (tag : String) : Forest → List (XmlAttribs × Forest)
  | .nil => []
  | .elem name attribs content rest =>
    if name = tag then (attribs, content) :: rest.named tag else rest.named tag

/-- The control that a `<ctl>` describes. -/
def ctlOf (attribs : XmlAttribs) : Ctl :=
  let values := (extractAttribs .ctl attribs).getD fun _ => none
  ⟨text values .name, (attribToUint INVALID_CTL_INDEX values .index).getD 0, text values .val⟩

/-- The controls in an element, in document order. -/
def Forest.ctls (f : Forest) : List Ctl := (f.named "ctl").map fun c => ctlOf c.1

/-- The controls of each case of a use case. -/
def Forest.caseCtls (f : Forest) : List (List Ctl) := (f.named "case").map fun c => c.2.ctls

/-- Those of each use case of a stream. -/
def Forest.usecaseCtls (f : Forest) : List (List (List Ctl)) := (f.named "usecase").map fun u => u.2.caseCtls

/-- The controls of each path of a device. -/
def Forest.pathCtls (f : Forest) : List (List Ctl) := (f.named "path").map fun p => p.2.ctls

/-- The controls of the `<init>` elements of a mixer. -/
def Forest.initCtls (f : Forest) : List Ctl := (f.named "init").flatMap fun i => i.2.ctls

/-- The controls under `<init>`, under each `<path>` and under each `<case>`. -/
def Document.initCtls (doc : Document) : List Ctl := (doc.content.named "mixer").flatMap fun m => m.2.initCtls

def Document.pathCtls (doc : Document) : List (List (List Ctl)) :=
  (doc.content.named "device").map fun d => d.2.pathCtls

def Document.caseCtls (doc : Document) : List (List (List (List Ctl))) :=
  (doc.content.named "stream").map fun s => s.2.usecaseCtls

/-- The arrays of a device and of a stream. -/
def deviceCtls (dev : Device) : List (List Ctl) := dev.paths.map Path.ctls

def usecaseArrays (u : UseCase) : List (List Ctl) := u.cases.map SCase.ctls

def streamCtls (s : PStream) : List (List (List Ctl)) := s.usecases.map usecaseArrays

/-- Every control is in the array of the element around it, and in no other. -/
structure Attached (doc : Document) (st : ParseState) : Prop where
  init : st.init_path = doc.initCtls
  paths : st.devices.map deviceCtls = doc.pathCtls
  cases : st.streams.map streamCtls = doc.caseCtls

def Document.hasInit (doc : Document) : Prop := ∃ m ∈ doc.content.named "mixer", m.2.named "init" ≠ []

/-- The controls of the cases that come before the first `<path>`. -/
def Forest.ctlsBeforePath : Forest → List Ctl
  | .nil => []
  | .elem name _ content rest =>
    if name = "device" ∧ content.named "path" ≠ [] then []
    else (if name = "stream" then content.usecaseCtls.flatten.flatten else []) ++ rest.ctlsBeforePath

/-! ## The arrays and the pointers -/

/-- What the handlers do with controls is seen in these: the arrays of `init_path`, of
each path and of each case, and the pointers to them. -/
structure Slots where
  init : List Ctl
  paths : List (List (List Ctl))
  cases : List (List (List (List Ctl)))
  path : Option PathRef
  device : Option Nat
  stream : Option Nat
  usecase : Option (Nat × Nat)
  scase : Option (Nat × Nat × Nat)

def ParseState.slots (st : ParseState) : Slots where
  init := st.init_path
  paths := st.devices.map deviceCtls
  cases := st.streams.map streamCtls
  path := st.current.path
  device := st.current.device
  stream := st.current.stream
  usecase := st.current.usecase
  scase := st.current.scase

def Slots.addCtl (a : Slots) (c : Ctl) : Option Slots :=
  match a.path with
  | some .init => some { a with init := a.init ++ [c] }
  | some (.device d p) => some { a with paths := a.paths.modify d fun ps => ps.modify p (· ++ [c]) }
  | none =>
    match a.scase with
    | some (s, u, k) =>
      some { a with cases := a.cases.modify s fun us => us.modify u fun ks => ks.modify k (· ++ [c]) }
    | none => none

def Slots.start (e : Elem) (attribs : XmlAttribs) (a : Slots) : Option Slots :=
  match e with
  | .ctl => a.addCtl (ctlOf attribs)
  | .path =>
    a.device.map fun d =>
      { a with
        paths := a.paths.modify d (· ++ [[]])
        path := some (.device d ((a.paths[d]?.map List.length).getD 0)) }
  | .device => some { a with paths := a.paths ++ [[]], device := some a.paths.length }
  | .stream => some { a with cases := a.cases ++ [[]], stream := some a.cases.length }
  | .usecase =>
    a.stream.map fun s =>
      { a with
        cases := a.cases.modify s (· ++ [[]])
        usecase := some (s, (a.cases[s]?.map List.length).getD 0) }
  | .scase =>
    a.usecase.map fun su =>
      { a with
        cases := a.cases.modify su.1 fun us => us.modify su.2 (· ++ [[]])
        scase := some (su.1, su.2, ((a.cases[su.1]?.bind fun us => us[su.2]?).map List.length).getD 0) }
  | .init => some { a with path := some .init }
  | _ => some a

def Slots.stop (e : Elem) (a : Slots) : Slots :=
  match e with
  | .path => { a with path := none }
  | .scase => { a with scase := none }
  | _ => a

/-! ## Handlers -/

section

variable {st st' : ParseState}

theorem addCtl_slots {c : Ctl} (h : st.addCtl c = .ok st') :
    st.slots.addCtl c = some st'.slots ∧ st'.stack = st.stack := by
  unfold ParseState.addCtl at h
  split at h
  case h_1 hpath =>
    obtain rfl := Except.ok.inj h
    refine ⟨?_, rfl⟩
    simp only [Slots.addCtl, ParseState.slots, hpath]
  case h_2 d p hpath =>
    obtain rfl := Except.ok.inj h
    refine ⟨?_, rfl⟩
    have hview : ∀ dev : Device, deviceCtls { dev with paths := dev.paths.modify p fun path =>
        { path with ctls := path.ctls ++ [c] } } = (deviceCtls dev).modify p (· ++ [c]) :=
      fun dev => map_modify_of_comm Path.ctls _ (· ++ [c]) (fun _ => rfl) dev.paths p
    simp only [Slots.addCtl, ParseState.slots, hpath]
    rw [map_modify_of_comm deviceCtls _ (fun ps => ps.modify p (· ++ [c])) hview]
  case h_3 hpath =>
    split at h
    case h_1 s u k hcase =>
      obtain rfl := Except.ok.inj h
      refine ⟨?_, rfl⟩
      have hinner : ∀ uc : UseCase, usecaseArrays { uc with cases := uc.cases.modify k fun sc =>
          { sc with ctls := sc.ctls ++ [c] } } = (usecaseArrays uc).modify k (· ++ [c]) :=
        fun uc => map_modify_of_comm SCase.ctls _ (· ++ [c]) (fun _ => rfl) uc.cases k
      have hview : ∀ str : PStream, streamCtls { str with usecases := str.usecases.modify u fun uc =>
          { uc with cases := uc.cases.modify k fun sc => { sc with ctls := sc.ctls ++ [c] } } } =
            (streamCtls str).modify u fun ks => ks.modify k (· ++ [c]) :=
        fun str => map_modify_of_comm usecaseArrays _ (fun ks => ks.modify k (· ++ [c])) hinner str.usecases u
      simp only [Slots.addCtl, ParseState.slots, hpath, hcase]
      rw [map_modify_of_comm streamCtls _ (fun us => us.modify u fun ks => ks.modify k (· ++ [c])) hview]
    case h_2 => cases h

/-- A change to the current stream that keeps its use cases. -/
theorem modifyStream_slots {f : PStream → PStream} (hf : ∀ s, (f s).usecases = s.usecases)
    (h : st.modifyStream f = .ok st') : st'.slots = st.slots ∧ st'.stack = st.stack := by
  unfold ParseState.modifyStream at h
  split at h
  case h_1 => cases h
  case h_2 s hs =>
    obtain rfl := Except.ok.inj h
    refine ⟨?_, rfl⟩
    have hview : ∀ s, streamCtls (f s) = streamCtls s := fun s => congrArg (List.map usecaseArrays) (hf s)
    simp only [ParseState.slots]
    rw [map_modify_same hview]

end

/-- What may follow an element, where `valid` may follow the one before it. -/
def followers (e : Elem) (valid : List Elem) : List Elem := if e = .mixer then [.device, .stream] else valid

/-- The stack behind a start handler. -/
def Pushed (e : Elem) (st st' : ParseState) : Prop :=
  ∀ top parent rest, st.stack = top :: parent :: rest →
    st'.stack = top :: ⟨parent.elem, followers e parent.valid_subelem⟩ :: rest

theorem pushed_of_stack {e : Elem} {st st' : ParseState} (he : e ≠ .mixer) (h : st'.stack = st.stack) :
    Pushed e st st' := by
  intro top parent rest hst
  rw [h, hst, followers, if_neg he]

section

variable {host : Host} {attribs : XmlAttribs} {values : Attribs} {st st' : ParseState}

theorem parseCtlStart_slots (hvalues : extractAttribs .ctl attribs = some values)
    (h : parseCtlStart host values st = .ok st') :
    st.slots.addCtl (ctlOf attribs) = some st'.slots ∧ st'.stack = st.stack := by
  obtain ⟨index, hindex, h⟩ := parseCtlStart_inv h
  have hctl : ctlOf attribs = ⟨text values .name, index, text values .val⟩ := by
    simp only [ctlOf, hvalues, Option.getD_some, hindex]
  rw [hctl]
  exact addCtl_slots h

theorem parsePathStart_slots (h : parsePathStart host values st = .ok st') :
    st.slots.start .path attribs = some st'.slots ∧ st'.stack = st.stack := by
  obtain ⟨d, id, names, hd, rfl⟩ := parsePathStart_inv h
  refine ⟨?_, rfl⟩
  have hview : ∀ dev : Device, deviceCtls { dev with paths := dev.paths ++ [⟨id, []⟩] } =
      deviceCtls dev ++ [[]] := by
    intro dev
    simp [deviceCtls]
  have hcount : ((st.devices.map deviceCtls)[d]?.map List.length).getD 0 =
      (st.devices[d]?.map fun dev => dev.paths.length).getD 0 := by
    rw [List.getElem?_map, Option.map_map]
    refine congrArg (Option.getD · 0) (congrArg (fun f => st.devices[d]?.map f) (funext fun dev => ?_))
    simp [deviceCtls]
  simp only [Slots.start, ParseState.slots, hd, Option.map_some, hcount]
  rw [map_modify_of_comm deviceCtls _ (· ++ [[]]) hview]

theorem parseUsecaseStart_slots (h : parseUsecaseStart host values st = .ok st') :
    st.slots.start .usecase attribs = some st'.slots ∧ st'.stack = st.stack := by
  obtain ⟨s, name, hs, rfl⟩ := parseUsecaseStart_inv h
  refine ⟨?_, rfl⟩
  have hview : ∀ str : PStream, streamCtls { str with usecases := str.usecases ++ [⟨name, []⟩] } =
      streamCtls str ++ [[]] := by
    intro str
    simp [streamCtls, usecaseArrays]
  have hcount : ((st.streams.map streamCtls)[s]?.map List.length).getD 0 =
      (st.streams[s]?.map fun str => str.usecases.length).getD 0 := by
    rw [List.getElem?_map, Option.map_map]
    refine congrArg (Option.getD · 0) (congrArg (fun f => st.streams[s]?.map f) (funext fun str => ?_))
    simp [streamCtls]
  simp only [Slots.start, ParseState.slots, hs, Option.map_some, hcount]
  rw [map_modify_of_comm streamCtls _ (· ++ [[]]) hview]

theorem parseCaseStart_slots (h : parseCaseStart host values st = .ok st') :
    st.slots.start .scase attribs = some st'.slots ∧ st'.stack = st.stack := by
  obtain ⟨s, u, name, hsu, rfl⟩ := parseCaseStart_inv h
  refine ⟨?_, rfl⟩
  have hinner : ∀ uc : UseCase, usecaseArrays { uc with cases := uc.cases ++ [⟨name, []⟩] } =
      usecaseArrays uc ++ [[]] := by
    intro uc
    simp [usecaseArrays]
  have hview : ∀ str : PStream, streamCtls { str with usecases := str.usecases.modify u fun uc =>
      { uc with cases := uc.cases ++ [⟨name, []⟩] } } = (streamCtls str).modify u (· ++ [[]]) :=
    fun str => map_modify_of_comm usecaseArrays _ (· ++ [[]]) hinner str.usecases u
  have hcount : (((st.streams.map streamCtls)[s]?.bind fun us => us[u]?).map List.length).getD 0 =
      ((st.streams[s]?.bind fun str => str.usecases[u]?).map fun uc => uc.cases.length).getD 0 := by
    rw [List.getElem?_map]
    cases st.streams[s]? with
    | none => rfl
    | some str =>
      simp only [Option.map_some, Option.bind_some, streamCtls, List.getElem?_map, Option.map_map]
      refine congrArg (Option.getD · 0) (congrArg (fun f => str.usecases[u]?.map f) (funext fun uc => ?_))
      simp [usecaseArrays]
  simp only [Slots.start, ParseState.slots, hsu, Option.map_some, hcount]
  rw [map_modify_of_comm streamCtls _ (fun us => us.modify u (· ++ [[]])) hview]

theorem parseDeviceStart_slots (h : parseDeviceStart host values st = .ok st') :
    st.slots.start .device attribs = some st'.slots ∧ st'.stack = st.stack := by
  obtain ⟨flag, output, input, -, -, -, rfl⟩ := parseDeviceStart_inv h
  refine ⟨?_, rfl⟩
  simp [Slots.start, ParseState.slots, deviceCtls]

theorem parseStreamStart_slots (h : parseStreamStart host values st = .ok st') :
    st.slots.start .stream attribs = some st'.slots ∧ st'.stack = st.stack := by
  obtain ⟨type, maxref, -, rfl⟩ := parseStreamStart_inv h
  refine ⟨?_, rfl⟩
  simp [Slots.start, ParseState.slots, streamCtls]

end

/-- What a start handler does to the slots and the stack. -/
theorem start_slots {e : Elem} {host : Host} {attribs : XmlAttribs} {values : Attribs} {st st' : ParseState}
    (hvalues : extractAttribs e attribs = some values) (h : e.start host values st = .ok st') :
    st.slots.start e attribs = some st'.slots ∧ Pushed e st st' := by
  have keep : e ≠ .mixer → (st.slots.start e attribs = some st'.slots ∧ st'.stack = st.stack) →
      st.slots.start e attribs = some st'.slots ∧ Pushed e st st' :=
    fun he h => ⟨h.1, pushed_of_stack he h.2⟩
  have inessential : ∀ f, Inessential f → st.modifyStream f = .ok st' →
      some st.slots = some st'.slots ∧ st'.stack = st.stack := by
    intro f hf h
    obtain ⟨hslots, hstack⟩ := modifyStream_slots (fun s => (hf s).1) h
    exact ⟨congrArg some hslots.symm, hstack⟩
  cases e with
  | ctl => exact keep (by decide) (parseCtlStart_slots hvalues h)
  | path => exact keep (by decide) (parsePathStart_slots h)
  | device => exact keep (by decide) (parseDeviceStart_slots h)
  | stream => exact keep (by decide) (parseStreamStart_slots h)
  | scase => exact keep (by decide) (parseCaseStart_slots h)
  | usecase => exact keep (by decide) (parseUsecaseStart_slots h)
  | enable =>
    obtain ⟨f, hf, h⟩ := @parseEnableDisableStart_inv host values st st' true h
    exact keep (by decide) (inessential f hf h)
  | disable =>
    obtain ⟨f, hf, h⟩ := @parseEnableDisableStart_inv host values st st' false h
    exact keep (by decide) (inessential f hf h)
  | stream_ctl =>
    obtain ⟨f, hf, h⟩ := @parseStreamCtlStart_inv host values st st' h
    exact keep (by decide) (inessential f hf h)
  | init =>
    obtain rfl := Except.ok.inj h
    exact keep (by decide) ⟨rfl, rfl⟩
  | audiohal =>
    obtain rfl := Except.ok.inj h
    exact keep (by decide) ⟨rfl, rfl⟩
  | mixer =>
    obtain ⟨mixer, rfl⟩ := @parseMixerStart_inv host values st st' h
    refine ⟨rfl, fun top parent rest hst => ?_⟩
    simp [hst, followers]
  | codec_probe =>
    obtain rfl := @parseCodecProbeStart_inv host values st st' h
    exact keep (by decide) ⟨rfl, rfl⟩
  | codec_case =>
    obtain ⟨c, rfl⟩ := @parseCodecCaseStart_inv host values st st' h
    exact keep (by decide) ⟨rfl, rfl⟩

theorem stop_slots {e : Elem} {host : Host} {st st' : ParseState} (h : e.stop host st = .ok st') :
    st'.slots = st.slots.stop e ∧ st'.stack = st.stack := by
  cases e with
  | codec_probe =>
    obtain rfl := @parseCodecProbeEnd_inv host st st' h
    exact ⟨rfl, rfl⟩
  | _ =>
    obtain rfl := Except.ok.inj h
    exact ⟨rfl, rfl⟩

theorem parseSectionStart_slots {host : Host} {name : String} {attribs : XmlAttribs} {st st' : ParseState}
    (h : parseSectionStart host name attribs st = .ok st') {top : StackEntry} {rest : List StackEntry}
    (hstack : st.stack = top :: rest) :
    ∃ e, resolve top.valid_subelem name = some e ∧ st.slots.start e attribs = some st'.slots ∧
      st'.stack = ⟨e, e.valid_subelem⟩ :: ⟨top.elem, followers e top.valid_subelem⟩ :: rest := by
  obtain ⟨top', rest', e, values, hstack', he, hvalues, h⟩ := parseSectionStart_inv h
  obtain ⟨rfl, rfl⟩ := List.cons.inj (hstack.symm.trans hstack')
  obtain ⟨hslots, hpushed⟩ := start_slots hvalues h
  exact ⟨e, he, hslots, hpushed _ _ _ (congrArg (_ :: ·) hstack)⟩

theorem parseSectionEnd_slots {host : Host} {st st' : ParseState} (h : parseSectionEnd host st = .ok st')
    {top : StackEntry} {rest : List StackEntry} (hstack : st.stack = top :: rest) :
    st'.slots = st.slots.stop top.elem ∧ st'.stack = rest := by
  obtain ⟨top', rest', st₁, hstack', hstop, rfl⟩ := parseSectionEnd_inv h
  obtain ⟨rfl, rfl⟩ := List.cons.inj (hstack.symm.trans hstack')
  obtain ⟨hslots, hkept⟩ := stop_slots hstop
  refine ⟨hslots, ?_⟩
  show st₁.stack.tail = rest
  rw [hkept, hstack]
  rfl

/-! ## Trees -/

/-- The walk of a tree: every element is started, walked through and stopped. -/
def walk (valid : List Elem) : Forest → Slots → Option Slots
  | .nil, a => some a
  | .elem name attribs content rest, a =>
    match resolve valid name with
    | none => none
    | some e =>
      (a.start e attribs).bind fun a =>
        (walk e.valid_subelem content a).bind fun a => walk (followers e valid) rest (a.stop e)

theorem resolve_mem {valid : List Elem} {name : String} {e : Elem} (h : resolve valid name = some e) :
    e ∈ valid ∧ e.name = name := by
  have := List.find?_some h
  exact of_decide_eq_true this

/-- **Events and trees.**  The stack behind the events of a forest is the one before
them, but for what may follow. -/
theorem runs_walk {f : Forest} {st st' : ParseState} (h : Runs st f.events st') {top : StackEntry}
    {rest : List StackEntry} (hstack : st.stack = top :: rest) :
    ∃ valid, st'.stack = ⟨top.elem, valid⟩ :: rest ∧ walk top.valid_subelem f st.slots = some st'.slots := by
  induction f generalizing st st' top rest with
  | nil =>
    cases h
    exact ⟨top.valid_subelem, hstack, rfl⟩
  | elem name attribs content next ihc ihn =>
    cases h with
    | cons hstart hr =>
      obtain ⟨st₂, hcontent, hr⟩ := hr.split
      cases hr with
      | cons hstop hnext =>
        obtain ⟨e, he, hslots₁, hstack₁⟩ := parseSectionStart_slots hstart hstack
        obtain ⟨valid, hstack₂, hwalk⟩ := ihc hcontent hstack₁
        obtain ⟨hslots₃, hstack₃⟩ := parseSectionEnd_slots hstop hstack₂
        obtain ⟨valid', hstack', hrest⟩ := ihn hnext hstack₃
        refine ⟨valid', hstack', ?_⟩
        rw [walk, he]
        dsimp only
        rw [hslots₁, Option.bind_some, hwalk, Option.bind_some, ← hslots₃]
        exact hrest

/-! ## The walk through an element -/

section

variable {valid : List Elem} {name : String} {attribs : XmlAttribs} {content rest : Forest} {a a' : Slots}

/-- An element taken apart. -/
theorem walk_elem (h : walk valid (.elem name attribs content rest) a = some a') :
    ∃ e a₁ a₂, e ∈ valid ∧ e.name = name ∧ a.start e attribs = some a₁ ∧
      walk e.valid_subelem content a₁ = some a₂ ∧ walk (followers e valid) rest (a₂.stop e) = some a' := by
  rw [walk] at h
  split at h
  case h_1 => cases h
  case h_2 e he =>
    obtain ⟨a₁, hstart, h⟩ := Option.bind_eq_some_iff.mp h
    obtain ⟨a₂, hcontent, h⟩ := Option.bind_eq_some_iff.mp h
    obtain ⟨hmem, hname⟩ := resolve_mem he
    exact ⟨e, a₁, a₂, hmem, hname, hstart, hcontent, h⟩

theorem walk_leaf {f : Forest} (h : walk [] f a = some a') : a' = a := by
  cases f with
  | nil => exact (Option.some.inj h).symm
  | elem name attribs content rest =>
    obtain ⟨e, -, -, hmem, -⟩ := walk_elem h
    exact absurd hmem List.not_mem_nil

@[simp] theorem named_nil (tag : String) : Forest.nil.named tag = [] := rfl

@[simp] theorem named_elem (tag : String) : (Forest.elem name attribs content rest).named tag =
    if name = tag then (attribs, content) :: rest.named tag else rest.named tag := rfl

/-- Controls join one after another. -/
theorem walk_ctls {f : Forest} (h : walk [.ctl] f a = some a') : f.ctls.foldlM Slots.addCtl a = some a' := by
  induction f generalizing a with
  | nil => exact h
  | elem name attribs content rest _ ih =>
    obtain ⟨e, a₁, a₂, hmem, rfl, hstart, hcontent, hrest⟩ := walk_elem h
    obtain rfl := List.mem_singleton.mp hmem
    obtain rfl := walk_leaf hcontent
    have hctls : (Forest.elem Elem.ctl.name attribs content rest).ctls = ctlOf attribs :: rest.ctls := by
      simp [Forest.ctls, Elem.name]
    rw [hctls, List.foldlM_cons, show a.addCtl (ctlOf attribs) = some a₂ from hstart]
    exact ih hrest

theorem addCtls_init (cs : List Ctl) (h : a.path = some .init) :
    cs.foldlM Slots.addCtl a = some { a with init := a.init ++ cs } := by
  induction cs generalizing a with
  | nil =>
    rw [List.append_nil]
    rfl
  | cons c cs ih =>
    have hadd : a.addCtl c = some { a with init := a.init ++ [c] } := by
      rw [Slots.addCtl, h]
    rw [List.foldlM_cons, hadd, Option.bind_eq_bind, Option.bind_some, ih (a := { a with init := a.init ++ [c] }) h]
    simp

/-- The last path of the last device is the current one. -/
theorem addCtls_path (cs : List Ctl) {ps : List (List (List Ctl))} {q : List (List Ctl)} {x : List Ctl}
    (h : a.path = some (.device ps.length q.length)) (hpaths : a.paths = ps ++ [q ++ [x]]) :
    cs.foldlM Slots.addCtl a = some { a with paths := ps ++ [q ++ [x ++ cs]] } := by
  induction cs generalizing a x with
  | nil =>
    rw [List.append_nil, ← hpaths]
    rfl
  | cons c cs ih =>
    have hadd : a.addCtl c = some { a with paths := ps ++ [q ++ [x ++ [c]]] } := by
      rw [Slots.addCtl, h]
      dsimp only
      rw [hpaths, modify_last, modify_last]
    rw [List.foldlM_cons, hadd, Option.bind_eq_bind, Option.bind_some,
      ih (a := { a with paths := ps ++ [q ++ [x ++ [c]]] }) h rfl]
    simp

/-- The last case is the current one, and no path is. -/
theorem addCtls_case (cs : List Ctl) {S : List (List (List (List Ctl)))} {U : List (List (List Ctl))}
    {K : List (List Ctl)} {x : List Ctl} (h : a.path = none)
    (hcase : a.scase = some (S.length, U.length, K.length)) (hcases : a.cases = S ++ [U ++ [K ++ [x]]]) :
    cs.foldlM Slots.addCtl a = some { a with cases := S ++ [U ++ [K ++ [x ++ cs]]] } := by
  induction cs generalizing a x with
  | nil =>
    rw [List.append_nil, ← hcases]
    rfl
  | cons c cs ih =>
    have hadd : a.addCtl c = some { a with cases := S ++ [U ++ [K ++ [x ++ [c]]]] } := by
      rw [Slots.addCtl, h]
      dsimp only
      rw [hcase]
      dsimp only
      rw [hcases, modify_last, modify_last, modify_last]
    rw [List.foldlM_cons, hadd, Option.bind_eq_bind, Option.bind_some,
      ih (a := { a with cases := S ++ [U ++ [K ++ [x ++ [c]]]] }) h hcase rfl]
    simp

end

/-! ## Devices, streams and the mixer -/

/-- What a case keeps of its controls when `current.path` is left at the initial path. -/
def kept (leak : Bool) (cs : List Ctl) : List Ctl := if leak then [] else cs

/-- Where the pointer is outside of a path. -/
def leftPath (leak : Bool) : Option PathRef := if leak then some .init else none

section

variable {f : Forest} {a a' : Slots} {leak : Bool}

/-- The paths of the last device. -/
theorem walk_paths {ps : List (List (List Ctl))} {q : List (List Ctl)} (h : walk [.path] f a = some a')
    (hdevice : a.device = some ps.length) (hpaths : a.paths = ps ++ [q]) :
    a' = { a with
      paths := ps ++ [q ++ f.pathCtls]
      path := if f.named "path" = [] then a.path else none } := by
  induction f generalizing a q with
  | nil =>
    obtain rfl := Option.some.inj h
    simp [Forest.pathCtls, ← hpaths]
  | elem name attribs content rest _ ih =>
    obtain ⟨e, a₁, a₂, hmem, rfl, hstart, hcontent, hrest⟩ := walk_elem h
    obtain rfl := List.mem_singleton.mp hmem
    have ha₁ : a₁ = { a with paths := ps ++ [q ++ [[]]], path := some (.device ps.length q.length) } := by
      simp only [Slots.start, hdevice, Option.map_some, Option.some.injEq, hpaths] at hstart
      rw [← hstart, modify_last]
      simp [hdevice]
    subst ha₁
    have ha₂ := walk_ctls hcontent
    rw [addCtls_path (a := { a with paths := ps ++ [q ++ [[]]], path := some (.device ps.length q.length) })
      _ rfl rfl] at ha₂
    obtain rfl := Option.some.inj ha₂
    have hend := ih (a := { a with paths := ps ++ [q ++ [content.ctls]], path := none }) hrest hdevice rfl
    rw [hend]
    simp [Forest.pathCtls, Elem.name]

/-- The cases of the last use case: their controls stay with them, or all join the
initial settings. -/
theorem walk_cases {S : List (List (List (List Ctl)))} {U : List (List (List Ctl))} {K : List (List Ctl)}
    (h : walk [.scase] f a = some a') (hpath : a.path = leftPath leak)
    (husecase : a.usecase = some (S.length, U.length)) (hcases : a.cases = S ++ [U ++ [K]]) :
    ∃ sc, a' = { a with
      init := a.init ++ if leak then f.caseCtls.flatten else []
      cases := S ++ [U ++ [K ++ f.caseCtls.map (kept leak)]]
      scase := sc } := by
  induction f generalizing a K with
  | nil =>
    obtain rfl := Option.some.inj h
    exact ⟨a.scase, by simp [Forest.caseCtls, ← hcases]⟩
  | elem name attribs content rest _ ih =>
    obtain ⟨e, a₁, a₂, hmem, rfl, hstart, hcontent, hrest⟩ := walk_elem h
    obtain rfl := List.mem_singleton.mp hmem
    have ha₁ : a₁ = { a with
        cases := S ++ [U ++ [K ++ [[]]]]
        scase := some (S.length, U.length, K.length) } := by
      simp only [Slots.start, husecase, Option.map_some, Option.some.injEq, hcases] at hstart
      rw [← hstart, modify_last, modify_last]
      simp [husecase]
    subst ha₁
    have ha₂ := walk_ctls hcontent
    have hctls : a₂ = { a with
        init := a.init ++ if leak then content.ctls else []
        cases := S ++ [U ++ [K ++ [kept leak content.ctls]]]
        scase := some (S.length, U.length, K.length) } := by
      cases leak with
      | true =>
        rw [addCtls_init _ (by exact hpath)] at ha₂
        rw [← Option.some.inj ha₂]
        simp [kept]
      | false =>
        rw [addCtls_case (a := { a with
            cases := S ++ [U ++ [K ++ [[]]]]
            scase := some (S.length, U.length, K.length) }) _ hpath rfl rfl] at ha₂
        rw [← Option.some.inj ha₂]
        simp [kept]
    subst hctls
    obtain ⟨sc, hend⟩ := ih (a := { a with
      init := a.init ++ if leak then content.ctls else []
      cases := S ++ [U ++ [K ++ [kept leak content.ctls]]]
      scase := none }) hrest hpath husecase rfl
    refine ⟨sc, ?_⟩
    rw [hend]
    cases leak <;> simp [Forest.caseCtls, Elem.name]

/-- The use cases of the last stream. -/
theorem walk_usecases {S : List (List (List (List Ctl)))} {U : List (List (List Ctl))}
    (h : walk [.stream_ctl, .enable, .disable, .usecase] f a = some a') (hpath : a.path = leftPath leak)
    (hstream : a.stream = some S.length) (hcases : a.cases = S ++ [U]) :
    ∃ uc sc, a' = { a with
      init := a.init ++ if leak then f.usecaseCtls.flatten.flatten else []
      cases := S ++ [U ++ f.usecaseCtls.map (List.map (kept leak))]
      usecase := uc
      scase := sc } := by
  induction f generalizing a U with
  | nil =>
    obtain rfl := Option.some.inj h
    exact ⟨a.usecase, a.scase, by simp [Forest.usecaseCtls, ← hcases]⟩
  | elem name attribs content rest _ ih =>
    obtain ⟨e, a₁, a₂, hmem, rfl, hstart, hcontent, hrest⟩ := walk_elem h
    by_cases he : e = .usecase
    · subst he
      have ha₁ : a₁ = { a with cases := S ++ [U ++ [[]]], usecase := some (S.length, U.length) } := by
        simp only [Slots.start, hstream, Option.map_some, Option.some.injEq, hcases] at hstart
        rw [← hstart, modify_last]
        simp [hstream]
      subst ha₁
      obtain ⟨sc, ha₂⟩ := walk_cases (a := { a with
        cases := S ++ [U ++ [[]]]
        usecase := some (S.length, U.length) }) hcontent hpath rfl rfl
      subst ha₂
      obtain ⟨uc, sc, hend⟩ := ih (a := { a with
        init := a.init ++ if leak then content.caseCtls.flatten else []
        cases := S ++ [U ++ [[] ++ content.caseCtls.map (kept leak)]]
        usecase := some (S.length, U.length)
        scase := sc }) hrest hpath hstream rfl
      refine ⟨uc, sc, ?_⟩
      rw [hend]
      cases leak <;> simp [Forest.usecaseCtls, Elem.name]
    · -- the other elements are empty and join nothing
      have hother : a₁ = a ∧ a₂ = a₁ ∧ a₂.stop e = a₂ ∧ followers e [.stream_ctl, .enable, .disable, .usecase] =
          [.stream_ctl, .enable, .disable, .usecase] ∧ e.name ≠ "usecase" := by
        simp only [List.mem_cons, List.not_mem_nil, or_false] at hmem
        rcases hmem with rfl | rfl | rfl | rfl
        · exact ⟨(Option.some.inj hstart).symm, walk_leaf hcontent, rfl, rfl, by decide⟩
        · exact ⟨(Option.some.inj hstart).symm, walk_leaf hcontent, rfl, rfl, by decide⟩
        · exact ⟨(Option.some.inj hstart).symm, walk_leaf hcontent, rfl, rfl, by decide⟩
        · exact absurd rfl he
      obtain ⟨rfl, rfl, hstop, hfollow, hname⟩ := hother
      rw [hstop, hfollow] at hrest
      obtain ⟨uc, sc, hend⟩ := ih hrest hpath hstream hcases
      exact ⟨uc, sc, by simpa [Forest.usecaseCtls, hname] using hend⟩

/-- The initial settings. -/
theorem walk_inits (h : walk [.init] f a = some a') :
    a' = { a with
      init := a.init ++ f.initCtls
      path := if f.named "init" = [] then a.path else some .init } := by
  induction f generalizing a with
  | nil =>
    obtain rfl := Option.some.inj h
    simp [Forest.initCtls]
  | elem name attribs content rest _ ih =>
    obtain ⟨e, a₁, a₂, hmem, rfl, hstart, hcontent, hrest⟩ := walk_elem h
    obtain rfl := List.mem_singleton.mp hmem
    obtain rfl := Option.some.inj hstart
    have ha₂ := walk_ctls hcontent
    rw [addCtls_init _ rfl] at ha₂
    obtain rfl := Option.some.inj ha₂
    have hend := ih (a := { a with init := a.init ++ content.ctls, path := some .init }) hrest
    rw [hend]
    simp [Forest.initCtls, Elem.name]

/-- Codecs that are probed for have nothing to do with controls. -/
theorem walk_codecs (h : walk [.codec_case] f a = some a') : a' = a := by
  induction f generalizing a with
  | nil => exact (Option.some.inj h).symm
  | elem name attribs content rest _ ih =>
    obtain ⟨e, a₁, a₂, hmem, rfl, hstart, hcontent, hrest⟩ := walk_elem h
    obtain rfl := List.mem_singleton.mp hmem
    obtain rfl := Option.some.inj hstart
    obtain rfl := walk_leaf hcontent
    exact ih hrest

/-- Nothing is missing where nothing could leak. -/
theorem map_kept {l : List (List (List Ctl))} (h : leak = true → l.flatten.flatten = []) :
    l.map (List.map (kept leak)) = l := by
  cases leak with
  | false => exact (List.map_congr_left fun ks _ => List.map_id ks).trans (List.map_id l)
  | true =>
    have hempty : ∀ ks ∈ l, ∀ cs ∈ ks, cs = [] := by
      intro ks hks cs hcs
      exact List.flatten_eq_nil_iff.mp (h rfl) cs (List.mem_flatten.mpr ⟨ks, hks, hcs⟩)
    refine (List.map_congr_left fun ks hks => ?_).trans (List.map_id l)
    refine (List.map_congr_left fun cs hcs => ?_).trans (List.map_id ks)
    exact (hempty ks hks cs hcs).symm

/-- The devices and streams behind the mixer. -/
structure Objects (leak : Bool) (f : Forest) (a a' : Slots) : Prop where
  init : a'.init = a.init ++ if leak then f.ctlsBeforePath else []
  paths : a'.paths = a.paths ++ (f.named "device").map fun d => d.2.pathCtls
  cases : (leak = true → f.ctlsBeforePath = []) →
    a'.cases = a.cases ++ (f.named "stream").map fun s => s.2.usecaseCtls
  mixer : f.named "mixer" = []

/-- A device with a path moves the pointer away from the initial path. -/
theorem leftPath_device (hpath : a.path = leftPath leak) (attribs : XmlAttribs) (content rest : Forest) :
    ∃ leak', (if content.named "path" = [] then a.path else none) = leftPath leak' ∧
      (if leak' then rest.ctlsBeforePath else []) =
        if leak then (Forest.elem Elem.device.name attribs content rest).ctlsBeforePath else [] := by
  by_cases hp : content.named "path" = []
  · exact ⟨leak, by rw [if_pos hp, hpath], by simp [Forest.ctlsBeforePath, Elem.name, hp]⟩
  · exact ⟨false, by rw [if_neg hp]; rfl, by simp [Forest.ctlsBeforePath, Elem.name, hp]⟩

/-- A device in front of the others. -/
theorem Objects.device {leak' : Bool} {b : Slots} {attribs : XmlAttribs} {content rest : Forest}
    (h : Objects leak' rest b a') (hinit : b.init = a.init) (hpaths : b.paths = a.paths ++ [content.pathCtls])
    (hcases : b.cases = a.cases)
    (hbefore : (if leak' then rest.ctlsBeforePath else []) =
      if leak then (Forest.elem Elem.device.name attribs content rest).ctlsBeforePath else []) :
    Objects leak (.elem Elem.device.name attribs content rest) a a' := by
  refine ⟨?_, ?_, fun hnone => ?_, ?_⟩
  · rw [h.init, hinit, hbefore]
  · rw [h.paths, hpaths]
    simp [Elem.name]
  · have hnone' : leak' = true → rest.ctlsBeforePath = [] := by
      intro hleak'
      rw [if_pos hleak'] at hbefore
      rw [hbefore]
      exact ite_eq_right_iff.mpr hnone
    rw [h.cases hnone', hcases]
    simp [Elem.name]
  · simpa [Elem.name] using h.mixer

/-- A stream in front of the others. -/
theorem Objects.stream {b : Slots} {attribs : XmlAttribs} {content rest : Forest} (h : Objects leak rest b a')
    (hinit : b.init = a.init ++ if leak then content.usecaseCtls.flatten.flatten else [])
    (hpaths : b.paths = a.paths)
    (hcases : b.cases = a.cases ++ [content.usecaseCtls.map (List.map (kept leak))]) :
    Objects leak (.elem Elem.stream.name attribs content rest) a a' := by
  have hbefore : (Forest.elem Elem.stream.name attribs content rest).ctlsBeforePath =
      content.usecaseCtls.flatten.flatten ++ rest.ctlsBeforePath := by
    simp [Forest.ctlsBeforePath, Elem.name]
  refine ⟨?_, ?_, ?_, ?_⟩
  · rw [hbefore, h.init, hinit]
    cases leak <;> simp
  · rw [h.paths, hpaths]
    simp [Elem.name]
  · rw [hbefore]
    intro hnone
    have hkept := map_kept (l := content.usecaseCtls) fun hleak : leak = true =>
      (List.append_eq_nil_iff.mp (hnone hleak)).1
    rw [h.cases fun hleak => (List.append_eq_nil_iff.mp (hnone hleak)).2, hcases, hkept]
    simp [Elem.name]
  · simpa [Elem.name] using h.mixer

theorem walk_objects (h : walk [.device, .stream] f a = some a') (hpath : a.path = leftPath leak) :
    Objects leak f a a' := by
  induction f generalizing a leak with
  | nil =>
    obtain rfl := Option.some.inj h
    exact ⟨by simp [Forest.ctlsBeforePath], by simp, fun _ => by simp, rfl⟩
  | elem name attribs content rest _ ih =>
    obtain ⟨e, a₁, a₂, hmem, rfl, hstart, hcontent, hrest⟩ := walk_elem h
    rcases List.mem_cons.mp hmem with rfl | hmem
    · obtain rfl := Option.some.inj hstart
      have ha₂ := walk_paths (a := { a with paths := a.paths ++ [[]], device := some a.paths.length })
        hcontent rfl rfl
      subst ha₂
      obtain ⟨leak', hpath', hbefore⟩ := leftPath_device hpath attribs content rest
      exact (ih hrest hpath').device rfl (by simp [Slots.stop]) rfl hbefore
    · obtain rfl := List.mem_singleton.mp hmem
      obtain rfl := Option.some.inj hstart
      obtain ⟨uc, sc, ha₂⟩ := walk_usecases
        (a := { a with cases := a.cases ++ [[]], stream := some a.cases.length }) hcontent hpath rfl rfl
      subst ha₂
      exact (@ih _ leak hrest hpath).stream rfl rfl (by simp [Slots.stop])

end

instance (doc : Document) : Decidable doc.hasInit :=
  inferInstanceAs (Decidable (∃ m ∈ doc.content.named "mixer", _))

/-- What the content of a document leaves in the arrays. -/
structure Placed (doc : Document) (a a' : Slots) : Prop where
  init : a'.init = a.init ++ doc.initCtls ++ (if doc.hasInit then doc.content.ctlsBeforePath else [])
  paths : a'.paths = a.paths ++ doc.pathCtls
  cases : (doc.hasInit → doc.content.ctlsBeforePath = []) → a'.cases = a.cases ++ doc.caseCtls

/-- The mixer, with the devices and streams behind it. -/
theorem Objects.placed {name : String} {attribs mixerAttribs : XmlAttribs} {inits rest : Forest} {a b a' : Slots}
    (h : Objects (decide (inits.named "init" ≠ [])) rest b a') (hinit : b.init = a.init ++ inits.initCtls)
    (hpaths : b.paths = a.paths) (hcases : b.cases = a.cases) :
    Placed ⟨name, attribs, .elem Elem.mixer.name mixerAttribs inits rest⟩ a a' := by
  have hbefore : (Forest.elem Elem.mixer.name mixerAttribs inits rest).ctlsBeforePath = rest.ctlsBeforePath := by
    simp [Forest.ctlsBeforePath, Elem.name]
  have hinits : (⟨name, attribs, .elem Elem.mixer.name mixerAttribs inits rest⟩ : Document).hasInit ↔
      inits.named "init" ≠ [] := by
    simp [Document.hasInit, Elem.name, h.mixer]
  have hall : (⟨name, attribs, .elem Elem.mixer.name mixerAttribs inits rest⟩ : Document).initCtls =
      inits.initCtls := by
    simp [Document.initCtls, Elem.name, h.mixer]
  refine ⟨?_, ?_, fun hnone => ?_⟩
  · rw [h.init, hall, hinit, hbefore]
    by_cases hi : inits.named "init" = []
    · rw [if_neg (by simp [hi]), if_neg (fun h => hinits.mp h hi)]
    · rw [if_pos (by simp [hi]), if_pos (hinits.mpr hi)]
  · rw [h.paths, hpaths]
    simp [Document.pathCtls, Elem.name]
  · rw [hbefore] at hnone
    rw [h.cases fun hleak => hnone (hinits.mpr (of_decide_eq_true hleak)), hcases]
    simp [Document.caseCtls, Elem.name]

/-- The probing for a codec, in front of the mixer. -/
theorem Placed.codec_probe {name : String} {attribs probeAttribs : XmlAttribs} {content rest : Forest}
    {a a' : Slots} (h : Placed ⟨name, attribs, rest⟩ a a') :
    Placed ⟨name, attribs, .elem Elem.codec_probe.name probeAttribs content rest⟩ a a' := by
  have hskip : ∀ part ∈ ["mixer", "device", "stream"],
      (Forest.elem Elem.codec_probe.name probeAttribs content rest).named part = rest.named part := by
    simp [Elem.name]
  have hbefore : (Forest.elem Elem.codec_probe.name probeAttribs content rest).ctlsBeforePath =
      rest.ctlsBeforePath := by
    simp [Forest.ctlsBeforePath, Elem.name]
  obtain ⟨hinit, hpaths, hcases⟩ := h
  constructor <;> simp only [Document.initCtls, Document.pathCtls, Document.caseCtls, Document.hasInit, hbefore,
    hskip "mixer" (by simp), hskip "device" (by simp), hskip "stream" (by simp)]
  · exact hinit
  · exact hpaths
  · exact hcases

/-- The content of a document: devices and streams stand behind the one mixer. -/
theorem walk_content {name : String} {attribs : XmlAttribs} {f : Forest} {a a' : Slots} (hpath : a.path = none)
    (h : walk [.mixer, .codec_probe] f a = some a') : Placed ⟨name, attribs, f⟩ a a' := by
  induction f generalizing a with
  | nil =>
    obtain rfl := Option.some.inj h
    constructor <;> simp [Document.initCtls, Document.pathCtls, Document.caseCtls, Forest.ctlsBeforePath]
  | elem tag tagAttribs content rest _ ih =>
    obtain ⟨e, a₁, a₂, hmem, rfl, hstart, hcontent, hrest⟩ := walk_elem h
    rcases List.mem_cons.mp hmem with rfl | hmem
    · obtain rfl := Option.some.inj hstart
      have ha₂ := walk_inits hcontent
      subst ha₂
      have hpath' : (if content.named "init" = [] then a.path else some .init) =
          leftPath (decide (content.named "init" ≠ [])) := by
        rw [hpath, leftPath]
        by_cases hi : content.named "init" = [] <;> simp [hi]
      exact (walk_objects hrest hpath').placed rfl rfl rfl
    · obtain rfl := List.mem_singleton.mp hmem
      obtain rfl := Option.some.inj hstart
      obtain rfl := walk_codecs hcontent
      exact (ih hpath hrest).codec_probe

/-- An accepted document leaves in the arrays what its tree says. -/
theorem parseDocument_placed {hosts : Nat → Host} {file : String} {cases : List CodecCase} {doc : Document}
    {st : ParseState} (h : parseDocument hosts file cases doc = .ok st) :
    Placed doc (initState file cases).slots st.slots := by
  obtain ⟨valid, -, hwalk⟩ := runs_walk (runs_of_parseEvents h) rfl
  obtain ⟨e, a₁, a₂, hmem, -, hstart, hcontent, hrest⟩ := walk_elem hwalk
  obtain rfl := List.mem_singleton.mp hmem
  obtain rfl := Option.some.inj hstart
  obtain rfl : a₂ = st.slots := Option.some.inj hrest
  exact walk_content rfl hcontent

theorem parseDocument_init {hosts : Nat → Host} {file : String} {cases : List CodecCase} {doc : Document}
    {st : ParseState} (h : parseDocument hosts file cases doc = .ok st) :
    st.init_path = doc.initCtls ++ if doc.hasInit then doc.content.ctlsBeforePath else [] :=
  (parseDocument_placed h).init

/-- **Controls and their elements.** -/
theorem ctls_attached_iff (hosts : Nat → Host) (file : String) (cases : List CodecCase) (doc : Document)
    (st : ParseState) (h : parseDocument hosts file cases doc = .ok st) :
    Attached doc st ↔ (doc.hasInit → doc.content.ctlsBeforePath = []) := by
  have hplaced := parseDocument_placed h
  have hinit := parseDocument_init h
  constructor
  · intro hattached hasInit
    rw [hattached.init, if_pos hasInit] at hinit
    exact List.self_eq_append_right.mp hinit
  · intro hnone
    refine ⟨?_, hplaced.paths, hplaced.cases hnone⟩
    rw [hinit]
    by_cases hasInit : doc.hasInit
    · rw [if_pos hasInit, hnone hasInit, List.append_nil]
    · rw [if_neg hasInit, List.append_nil]

/-- A device whose card opens and has none of the controls yet. -/
def plainHost : Host := ⟨true, fun _ => some fun _ => none, none⟩

def ctlElem (name val : String) : Forest := .elem "ctl" [("name", name), ("val", val)] .nil .nil

def mixerElem (rest : Forest) : Forest :=
  .elem "mixer" [] (.elem "init" [] (ctlElem "Master Volume" "10") .nil) rest

def streamElem (rest : Forest) : Forest :=
  .elem "stream" [("type", "pcm"), ("dir", "out")]
    (.elem "usecase" [("name", "dock")] (.elem "case" [("name", "on")] (ctlElem "Dock Switch" "1") .nil) .nil)
    rest

def deviceElem (rest : Forest) : Forest :=
  .elem "device" [("name", "speaker")] (.elem "path" [("name", "on")] (ctlElem "Amp Switch" "1") .nil) rest

def deviceFirst : Document := ⟨"audiohal", [], mixerElem (deviceElem (streamElem .nil))⟩

def streamFirst : Document := ⟨"audiohal", [], mixerElem (streamElem (deviceElem .nil))⟩

theorem accepted_of_isOk {x : Except Stop ParseState} (h : x.isOk = true) : ∃ st, x = .ok st := by
  cases x with
  | error stop => cases h
  | ok st => exact ⟨st, rfl⟩

theorem ctls_attached_iff_device_first :
    ∃ st, parseDocument (fun _ => plainHost) "audio.mocha.xml" [] deviceFirst = .ok st ∧
      Attached deviceFirst st := by
  obtain ⟨st, hst⟩ := accepted_of_isOk
    (show (parseDocument (fun _ => plainHost) "audio.mocha.xml" [] deviceFirst).isOk = true by decide)
  exact ⟨st, hst, (ctls_attached_iff _ _ _ deviceFirst st hst).mpr fun _ => by decide⟩

/-- The control of a case before the first path joins the initial settings. -/
theorem case_ctl_joins_init :
    ¬ ∀ (hosts : Nat → Host) (file : String) (cases : List CodecCase) (doc : Document) (st : ParseState),
      parseDocument hosts file cases doc = .ok st → Attached doc st := by
  intro h
  obtain ⟨st, hst⟩ := accepted_of_isOk
    (show (parseDocument (fun _ => plainHost) "audio.mocha.xml" [] streamFirst).isOk = true by decide)
  have hinit := parseDocument_init hst
  rw [(h _ _ _ _ st hst).init] at hinit
  revert hinit
  decide

end MochaHal.Audio.Parser
