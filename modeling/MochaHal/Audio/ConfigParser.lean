import MochaHal.Lib.Bits
import MochaHal.Lib.Decimal
import MochaHal.Lib.Entries
import MochaHal.Audio.Routing

/-! The configuration file parser of `configmgr/audio_config.c`.  The XML library calls
`parse_section_start` and `parse_section_end` for the elements of a document in order;
they keep a stack of open elements with the elements that may follow, and call the
handlers of the element table.  A handler finds the object it adds to through the
`current` pointers, which are positions in the arrays here. -/

namespace MochaHal.Audio.Parser
open MochaHal.Bits MochaHal.Entries
open MochaHal.Decimal (isSpaceChar)

def ENOENT : Int := 2
def ENOMEM : Int := 12
def EINVAL : Int := 22

def MAX_PARSE_DEPTH : Nat := 6
def BYTE_ARRAY_MAX_SIZE : Nat := 512
def INVALID_CTL_INDEX : BitVec 32 := 0xFFFFFFFF
def INT_MAX : BitVec 32 := 0x7FFFFFFF

/-! ## Elements and attributes -/

inductive Elem
  | ctl
  | path
  | device
  | stream
  | enable
  | disable
  | scase
  | usecase
  | stream_ctl
  | init
  | mixer
  | audiohal
  | codec_probe
  | codec_case
  deriving DecidableEq, Repr

inductive Attrib
  | name
  | val
  | path
  | function
  | type
  | index
  | dir
  | card
  | device
  | instances
  | rate
  | period_size
  | period_count
  | min
  | max
  | file
  deriving DecidableEq, Repr

/-- The elements in the order of the table. -/
def Elem.all : List Elem :=
  [.ctl, .path, .device, .stream, .enable, .disable, .scase, .usecase, .stream_ctl, .init, .mixer, .audiohal,
    .codec_probe, .codec_case]

def Elem.name : Elem → String
  | .ctl | .stream_ctl => "ctl"
  | .path => "path"
  | .device => "device"
  | .stream => "stream"
  | .enable => "enable"
  | .disable => "disable"
  | .scase | .codec_case => "case"
  | .usecase => "usecase"
  | .init => "init"
  | .mixer => "mixer"
  | .audiohal => "audiohal"
  | .codec_probe => "codec_probe"

def Elem.valid_attribs : Elem → List Attrib
  | .ctl => [.name, .val, .index]
  | .path | .device | .scase | .usecase => [.name]
  | .stream => [.name, .type, .dir, .card, .device, .instances, .rate, .period_size, .period_count]
  | .enable | .disable => [.path]
  | .stream_ctl => [.name, .function, .index, .min, .max]
  | .init | .audiohal => []
  | .mixer => [.card]
  | .codec_probe => [.file]
  | .codec_case => [.name, .file]

def Elem.required_attribs : Elem → List Attrib
  | .ctl => [.name, .val]
  | .path | .device | .scase | .usecase => [.name]
  | .stream => [.type]
  | .enable | .disable => [.path]
  | .stream_ctl => [.name, .function]
  | .init | .audiohal | .mixer => []
  | .codec_probe => [.file]
  | .codec_case => [.name, .file]

def Elem.valid_subelem : Elem → List Elem
  | .ctl | .enable | .disable | .stream_ctl | .codec_case => []
  | .path | .scase | .init => [.ctl]
  | .device => [.path]
  | .stream => [.stream_ctl, .enable, .disable, .usecase]
  | .usecase => [.scase]
  | .mixer => [.init]
  | .audiohal => [.mixer, .codec_probe]
  | .codec_probe => [.codec_case]

def Attrib.all : List Attrib :=
  [.name, .val, .path, .function, .type, .index, .dir, .card, .device, .instances, .rate, .period_size,
    .period_count, .min, .max, .file]

def Attrib.text : Attrib → String
  | .name => "name"
  | .val => "val"
  | .path => "path"
  | .function => "function"
  | .type => "type"
  | .index => "index"
  | .dir => "dir"
  | .card => "card"
  | .device => "device"
  | .instances => "instances"
  | .rate => "rate"
  | .period_size => "period_size"
  | .period_count => "period_count"
  | .min => "min"
  | .max => "max"
  | .file => "file"

/-- The attributes of an element as the XML library passes them. -/
abbrev XmlAttribs := List (String × String)

/-- `attribs.value`. -/
abbrev Attribs := Attrib → Option String

/-- The loop of `extract_attribs`; every name must be that of a valid attribute. -/
def extractLoop (e : Elem) : XmlAttribs → Attribs → Option Attribs
  | [], values => some values
  | (key, value) :: rest, values =>
    match Attrib.all.find? fun i => i ∈ e.valid_attribs ∧ i.text = key with
    | none => none
    | some i => extractLoop e rest fun j => if j = i then some value else values j

def extractAttribs (e : Elem) (attribs : XmlAttribs) : Option Attribs :=
  match extractLoop e attribs fun _ => none with
  | none => none
  | some values => if ∀ i ∈ e.required_attribs, (values i).isSome then some values else none

/-! ## Numbers -/

def digitOf (c : Char) : Nat :=
  if 48 ≤ c.toNat ∧ c.toNat ≤ 57 then c.toNat - 48
  else if 65 ≤ c.toNat ∧ c.toNat ≤ 90 then c.toNat - 55
  else if 97 ≤ c.toNat ∧ c.toNat ≤ 122 then c.toNat - 87
  else 36

/-- The base that `strtoul` takes from the prefix, with the text behind it. -/
def baseOf : List Char → Nat × List Char
  | '0' :: x :: d :: rest =>
    if (x = 'x' ∨ x = 'X') ∧ digitOf d < 16 then (16, d :: rest) else (8, '0' :: x :: d :: rest)
  | '0' :: rest => (8, '0' :: rest)
  | text => (10, text)

/-- `string_to_uint`: `strtoul` with any base, up to the end of the string.  An
`unsigned long` has 32 bits; too large a number is the largest one. -/
def stringToUint (str : String) : Option (BitVec 32) :=
  let text := str.toList.dropWhile isSpaceChar
  let negative := text.head? = some '-'
  let text := if text.head? = some '-' ∨ text.head? = some '+' then text.tail else text
  let (base, text) := baseOf text
  let digits := text.takeWhile fun c => digitOf c < base
  if digits = [] ∨ digits.length < text.length then none
  else
    let v := digits.foldl (fun v c => v * base + digitOf c) 0
    if v < 2 ^ 32 then some (if negative then -BitVec.ofNat 32 v else BitVec.ofNat 32 v)
    else some 0xFFFFFFFF

/-- `attrib_to_uint`: the value stays as it was if there is no attribute; `none` is
-EINVAL. -/
def attribToUint (value : BitVec 32) (attribs : Attribs) (i : Attrib) : Option (BitVec 32) :=
  match attribs i with
  | none => some value
  | some str => stringToUint str

/-! ## The mixer -/

inductive MixerCtlType
  | bool
  | int
  | enum
  | byte
  | iec958
  | int64
  | unknown
  deriving DecidableEq, Repr

structure MixerCtl where
  id : Nat
  type : MixerCtlType
  num_values : Nat
  range_min : Int
  range_max : Int

/-- The controls of a card by name. -/
abbrev Mixer := String → Option MixerCtl

/-- The tokens of a text between separators; `strtok` skips empty ones. -/
def tokens (separator : Char) (text : List Char) : List (List Char) :=
  (text.splitBy fun a b => (a == separator) == (b == separator)).filter fun token => token.head? ≠ some separator

/-- The error code of `make_byte_array`. -/
def makeByteArray (c : Ctl) (ctl : MixerCtl) : Int :=
  let parts := tokens ',' c.value.toList
  if ctl.num_values > BYTE_ARRAY_MAX_SIZE then -EINVAL
  else if c.index.toNat ≥ ctl.num_values then -EINVAL
  else if c.index.toNat + parts.length > ctl.num_values then -EINVAL
  else if ∀ part ∈ parts, (stringToUint (String.ofList part)).isSome then 0
  else -EINVAL

/-- The error code of `ctl_open` for a control that is not open.  The control keeps the
text of its value here. -/
def ctlOpen (mixer : Mixer) (c : Ctl) : Int :=
  match mixer c.name with
  | none => -ENOENT
  | some ctl =>
    match ctl.type with
    | .byte => makeByteArray (if c.index = INVALID_CTL_INDEX then { c with index := 0 } else c) ctl
    | .bool | .int => if (stringToUint c.value).isSome then 0 else -EINVAL
    | .enum => 0
    | .iec958 | .int64 | .unknown => -EINVAL

/-! ## The state -/

structure SCase where
  name : String
  ctls : List Ctl

structure UseCase where
  name : String
  cases : List SCase

structure StreamControl where
  id : Nat
  index : BitVec 32
  min : BitVec 32
  max : BitVec 32

/-- A stream with what routing does not use: its volume controls and use cases. -/
structure PStream where
  stream : Stream
  volume_left : Option StreamControl
  volume_right : Option StreamControl
  usecases : List UseCase

/-- The path that `current.path` points to: `init_path`, or path `p` of device `d`. -/
inductive PathRef
  | init
  | device (d p : Nat)
  deriving DecidableEq, Repr

/-- The `current` pointers: a use case is given by its stream and its position there. -/
structure Current where
  device : Option Nat
  stream : Option Nat
  path : Option PathRef
  usecase : Option (Nat × Nat)
  scase : Option (Nat × Nat × Nat)
  codec_probe : Bool

structure StackEntry where
  elem : Elem
  valid_subelem : List Elem

/-- The case of a codec: its name and the file for it. -/
structure CodecCase where
  codec_name : String
  file : String

structure ParseState where
  devices : List Device
  streams : List PStream
  supported_output_devices : Mask
  supported_input_devices : Mask
  mixer : Option Mixer
  path_names : List String
  init_path : List Ctl
  probe_file : Option String
  codec_cases : List CodecCase
  cur_xml_file : String
  current : Current
  stack : List StackEntry

/-- What `init_state` and `do_parse` start from.  Codec cases are left by a document that
named another file. -/
def initState (file : String) (cases : List CodecCase) : ParseState where
  devices := []
  streams := []
  supported_output_devices := 0
  supported_input_devices := 0
  mixer := none
  path_names := ["off", "on"]
  init_path := []
  probe_file := none
  codec_cases := cases
  cur_xml_file := file
  current := ⟨none, none, none, none, none, false⟩
  stack := [⟨.ctl, [.audiohal]⟩]

/-- The configuration that the parser hands to routing. -/
def ParseState.configMgr (st : ParseState) : ConfigMgr := ⟨st.devices, st.streams.map PStream.stream⟩

/-- Why a document is not parsed to its end: an error, another file to read instead, or
a pointer that is null. -/
inductive Stop
  | error (code : Int)
  | redirect (file : String)
  | crash

/-- What a handler gets from outside: whether memory is left for the strings and the
array it extends, the card to open and the first line of the probe file. -/
structure Host where
  alloc : Bool
  mixer_open : BitVec 32 → Option Mixer
  codec_line : Option String

abbrev Handler := Host → Attribs → ParseState → Except Stop ParseState

/-! ## Handlers -/

/-- A required attribute. -/
def text (attribs : Attribs) (i : Attrib) : String := (attribs i).getD ""

/-- A control joins the path that is current, or else the case. -/
def ParseState.addCtl (c : Ctl) (st : ParseState) : Except Stop ParseState :=
  match st.current.path with
  | some .init => .ok { st with init_path := st.init_path ++ [c] }
  | some (.device d p) =>
    .ok { st with devices := st.devices.modify d fun dev =>
      { dev with paths := dev.paths.modify p fun path => { path with ctls := path.ctls ++ [c] } } }
  | none =>
    match st.current.scase with
    | some (s, u, k) =>
      .ok { st with streams := st.streams.modify s fun str =>
        { str with usecases := str.usecases.modify u fun uc =>
          { uc with cases := uc.cases.modify k fun sc => { sc with ctls := sc.ctls ++ [c] } } } }
    | none => .error .crash

def parseCtlStart : Handler := fun host attribs st =>
  if host.alloc = false then .error (.error (-ENOMEM))
  else
    match attribToUint INVALID_CTL_INDEX attribs .index with
    | none => .error (.error (-EINVAL))
    | some index =>
      let c : Ctl := ⟨text attribs .name, index, text attribs .val⟩
      let ret := ctlOpen (st.mixer.getD fun _ => none) c
      if ret = 0 ∨ ret = -ENOENT then st.addCtl c else .error (.error ret)

/-- The id of a path name, which is added if it is new. -/
def addPathName (names : List String) (name : String) : Nat × List String :=
  match names.idxOf? name with
  | some i => (i, names)
  | none => (names.length, names ++ [name])

def parsePathStart : Handler := fun host attribs st =>
  match st.current.device with
  | none => .error .crash
  | some d =>
    if host.alloc = false then .error (.error (-ENOMEM))
    else
      let (id, names) := addPathName st.path_names (text attribs .name)
      let count := (st.devices[d]?.map fun dev => dev.paths.length).getD 0
      .ok { st with
        path_names := names
        devices := st.devices.modify d fun dev => { dev with paths := dev.paths ++ [⟨id, []⟩] }
        current := { st.current with path := some (.device d count) } }

def parsePathEnd (st : ParseState) : Except Stop ParseState :=
  .ok { st with current := { st.current with path := none } }

def parseDeviceStart : Handler := fun host attribs st =>
  match deviceTable.find? fun entry => entry.1 = text attribs .name with
  | none => .error (.error (-EINVAL))
  | some (_, flag) =>
    let input := flag &&& AUDIO_DEVICE_BIT_IN ≠ 0
    let existing := if input then st.supported_input_devices else st.supported_output_devices
    if flag ≠ 0 ∧ flag &&& existing = flag then .error (.error (-EINVAL))
    else if host.alloc = false then .error (.error (-ENOMEM))
    else
      .ok { st with
        supported_input_devices := if input then existing ||| flag else st.supported_input_devices
        supported_output_devices := if input then st.supported_output_devices else existing ||| flag
        devices := st.devices ++ [⟨flag, 0, []⟩]
        current := { st.current with device := some st.devices.length } }

/-- The type of a stream, or -EINVAL. -/
def streamType (name type dir : Option String) : Option StreamType :=
  if dir = none ∧ name ≠ some "global" then none
  else if dir ≠ none ∧ dir ≠ some "out" ∧ dir ≠ some "in" then none
  else if name = some "global" then some .global
  else if type = some "hw" then
    if name = none then none else some (if dir = some "out" then .out_hw else .in_hw)
  else if type = some "pcm" then some (if dir = some "out" then .out_pcm else .in_pcm)
  else if type = some "compress" then some (if dir = some "out" then .out_compress else .in_compress)
  else none

/-- The numbers of a stream other than `instances`, which are only checked here. -/
def numbersValid (attribs : Attribs) : Bool :=
  [Attrib.card, .device, .rate, .period_count, .period_size].all fun i => (attribToUint 0 attribs i).isSome

def parseStreamStart : Handler := fun host attribs st =>
  let name := attribs .name
  if host.alloc = false then .error (.error (-ENOMEM))
  else if name ≠ none ∧ st.streams.any fun s => s.stream.name = name then .error (.error (-EINVAL))
  else
    match streamType name (attribs .type) (attribs .dir), attribToUint INT_MAX attribs .instances with
    | some type, some maxref =>
      if numbersValid attribs then
        .ok { st with
          streams := st.streams ++ [⟨⟨type, name, 0, maxref.toInt, -1, -1, 0⟩, none, none, []⟩]
          current := { st.current with stream := some st.streams.length } }
      else .error (.error (-EINVAL))
    | _, _ => .error (.error (-EINVAL))

/-- A change to the stream that is current. -/
def ParseState.modifyStream (f : PStream → PStream) (st : ParseState) : Except Stop ParseState :=
  match st.current.stream with
  | none => .error .crash
  | some s => .ok { st with streams := st.streams.modify s f }

/-- `parse_enable_start` and `parse_disable_start`. -/
def parseEnableDisableStart (isEnable : Bool) : Handler := fun _ attribs st =>
  match st.path_names.idxOf? (text attribs .path) with
  | none => .error (.error (-EINVAL))
  | some i =>
    st.modifyStream fun s => { s with stream :=
      if isEnable then { s.stream with enable_path := (i : Int) }
      else { s.stream with disable_path := (i : Int) } }

def parseUsecaseStart : Handler := fun host attribs st =>
  match st.current.stream with
  | none => .error .crash
  | some s =>
    if host.alloc = false then .error (.error (-ENOMEM))
    else
      let count := (st.streams[s]?.map fun str => str.usecases.length).getD 0
      .ok { st with
        streams := st.streams.modify s fun str =>
          { str with usecases := str.usecases ++ [⟨text attribs .name, []⟩] }
        current := { st.current with usecase := some (s, count) } }

def parseCaseStart : Handler := fun host attribs st =>
  match st.current.usecase with
  | none => .error .crash
  | some (s, u) =>
    if host.alloc = false then .error (.error (-ENOMEM))
    else
      let count := ((st.streams[s]?.bind fun str => str.usecases[u]?).map fun uc => uc.cases.length).getD 0
      .ok { st with
        streams := st.streams.modify s fun str =>
          { str with usecases := str.usecases.modify u fun uc =>
            { uc with cases := uc.cases ++ [⟨text attribs .name, []⟩] } }
        current := { st.current with scase := some (s, u, count) } }

def parseCaseEnd (st : ParseState) : Except Stop ParseState :=
  .ok { st with current := { st.current with scase := none } }

/-- A limit of a volume control: the attribute, or what the control has. -/
def controlLimit (attribs : Attribs) (i : Attrib) (own : Int) : Except Stop (BitVec 32) :=
  match attribs i with
  | some str =>
    match stringToUint str with
    | none => .error (.error (-EINVAL))
    | some v => .ok v
  | none => if own < 0 then .error (.error own) else .ok (BitVec.ofInt 32 own)

def parseStreamCtlStart : Handler := fun _ attribs st =>
  match (st.mixer.getD fun _ => none) (text attribs .name), attribToUint 0 attribs .index with
  | some ctl, some index =>
    let function := text attribs .function
    if function ≠ "leftvol" ∧ function ≠ "rightvol" then .error (.error (-EINVAL))
    else do
      let min ← controlLimit attribs .min ctl.range_min
      let max ← controlLimit attribs .max ctl.range_max
      let control : StreamControl := ⟨ctl.id, index, min, max⟩
      st.modifyStream fun s =>
        if function = "leftvol" then { s with volume_left := some control }
        else { s with volume_right := some control }
  | _, _ => .error (.error (-EINVAL))

def parseInitStart : Handler := fun _ _ st =>
  .ok { st with current := { st.current with path := some .init } }

/-- The card is opened, and the element around may have devices and streams from now on
and no other mixer. -/
def parseMixerStart : Handler := fun host attribs st =>
  match attribToUint 0 attribs .card with
  | none => .error (.error (-EINVAL))
  | some card =>
    match host.mixer_open card with
    | none => .error (.error (-EINVAL))
    | some mixer =>
      .ok { st with
        mixer := some mixer
        stack := st.stack.modify 1 fun entry => { entry with valid_subelem := [.device, .stream] } }

def parseCodecProbeStart : Handler := fun _ attribs st =>
  if st.probe_file = none then
    .ok { st with probe_file := attribs .file, current := { st.current with codec_probe := true } }
  else .error (.error (-EINVAL))

def parseCodecCaseStart : Handler := fun host attribs st =>
  if st.current.codec_probe = false then .error .crash
  else if host.alloc = false then .error (.error (-ENOMEM))
  else .ok { st with codec_cases := st.codec_cases ++ [⟨text attribs .name, text attribs .file⟩] }

/-- `probe_trim_spaces`. -/
def probeTrimSpaces (line : String) : String :=
  String.ofList ((line.toList.dropWhile isSpaceChar).reverse.dropWhile isSpaceChar).reverse

/-- `probe_config_file`, whose own error code is not used: the parser is stopped if the
line names a codec. -/
def probeConfigFile (host : Host) (st : ParseState) : Except Stop ParseState :=
  match host.codec_line with
  | none => .ok st
  | some line =>
    match st.codec_cases.find? fun c => c.codec_name = probeTrimSpaces line with
    | none => .ok st
    | some c => if c.file = st.cur_xml_file then .error (.error (-EINVAL)) else .error (.redirect c.file)

def parseCodecProbeEnd (host : Host) (st : ParseState) : Except Stop ParseState :=
  probeConfigFile host { st with current := { st.current with codec_probe := false } }

/-! ## Sections -/

/-- `start_fn` of the table. -/
def Elem.start : Elem → Handler
  | .ctl => parseCtlStart
  | .path => parsePathStart
  | .device => parseDeviceStart
  | .stream => parseStreamStart
  | .enable => parseEnableDisableStart true
  | .disable => parseEnableDisableStart false
  | .scase => parseCaseStart
  | .usecase => parseUsecaseStart
  | .stream_ctl => parseStreamCtlStart
  | .init => parseInitStart
  | .mixer => parseMixerStart
  | .audiohal => fun _ _ st => .ok st
  | .codec_probe => parseCodecProbeStart
  | .codec_case => parseCodecCaseStart

/-- `end_fn` of the table.  Those of a device, a stream and a use case only give memory
back. -/
def Elem.stop (e : Elem) (host : Host) (st : ParseState) : Except Stop ParseState :=
  match e with
  | .path => parsePathEnd st
  | .scase => parseCaseEnd st
  | .codec_probe => parseCodecProbeEnd host st
  | _ => .ok st

/-- The element of a name among those that may follow. -/
def resolve (valid : List Elem) (name : String) : Option Elem :=
  Elem.all.find? fun e => e ∈ valid ∧ e.name = name

def parseSectionStart (host : Host) (name : String) (attribs : XmlAttribs) (st : ParseState) :
    Except Stop ParseState :=
  match st.stack with
  | [] => .error .crash
  | top :: _ =>
    match resolve top.valid_subelem name with
    | none => .error (.error (-EINVAL))
    | some e =>
      if st.stack.length > MAX_PARSE_DEPTH then .error (.error (-EINVAL))
      else
        match extractAttribs e attribs with
        | none => .error (.error (-EINVAL))
        | some values => e.start host values { st with stack := ⟨e, e.valid_subelem⟩ :: st.stack }

def parseSectionEnd (host : Host) (st : ParseState) : Except Stop ParseState :=
  match st.stack with
  | [] => .error .crash
  | top :: _ => do
    let st ← top.elem.stop host st
    .ok { st with stack := st.stack.tail }

/-! ## Documents -/

/-- Elements with what is in them and what follows them; text is not looked at. -/
inductive Forest
  | nil
  | elem (name : String) (attribs : XmlAttribs) (content rest : Forest)
  deriving DecidableEq, Repr

/-- A call of the XML library. -/
inductive XmlEvent
  | start (name : String) (attribs : XmlAttribs)
  | stop (name : String)
  deriving DecidableEq, Repr

def Forest.events : Forest → List XmlEvent
  | .nil => []
  | .elem name attribs content rest =>
    .start name attribs :: (content.events ++ .stop name :: rest.events)

def handle (host : Host) (st : ParseState) : XmlEvent → Except Stop ParseState
  | .start name attribs => parseSectionStart host name attribs st
  | .stop _ => parseSectionEnd host st

/-- Nothing is handled after an error or once the parser is stopped. -/
def parseEvents (hosts : Nat → Host) (st : ParseState) : List XmlEvent → Except Stop ParseState
  | [] => .ok st
  | event :: rest =>
    match handle (hosts 0) st event with
    | .error stop => .error stop
    | .ok st => parseEvents (fun n => hosts (n + 1)) st rest

/-- A document has one root. -/
structure Document where
  name : String
  attribs : XmlAttribs
  content : Forest

def Document.events (doc : Document) : List XmlEvent :=
  (Forest.elem doc.name doc.attribs doc.content .nil).events

/-- `do_parse` of a document that is read to its end. -/
def parseDocument (hosts : Nat → Host) (file : String) (cases : List CodecCase) (doc : Document) :
    Except Stop ParseState :=
  parseEvents hosts (initState file cases) doc.events

/-! ## Runs -/

/-- A guard that has let a handler pass. -/
theorem of_guard {c : Prop} [Decidable c] {α : Type} {stop : Stop} {x : Except Stop α} {r : α}
    (h : (if c then .error stop else x) = .ok r) : ¬ c ∧ x = .ok r := by
  by_cases hc : c
  · rw [if_pos hc] at h
    cases h
  · rw [if_neg hc] at h
    exact ⟨hc, h⟩

theorem bind_eq_ok {α β : Type} {x : Except Stop α} {f : α → Except Stop β} {r : β} (h : (x >>= f) = .ok r) :
    ∃ a, x = .ok a ∧ f a = .ok r := by
  cases x with
  | error stop => cases h
  | ok a => exact ⟨a, rfl, h⟩

/-- The events of a document, each handled without an error. -/
inductive Runs : ParseState → List XmlEvent → ParseState → Prop
  | nil (st : ParseState) : Runs st [] st
  | cons {st st₁ st' : ParseState} {event : XmlEvent} {events : List XmlEvent} {host : Host}
      (h : handle host st event = .ok st₁) (hr : Runs st₁ events st') : Runs st (event :: events) st'

theorem runs_of_parseEvents {hosts : Nat → Host} {st st' : ParseState} {events : List XmlEvent}
    (h : parseEvents hosts st events = .ok st') : Runs st events st' := by
  induction events generalizing hosts st with
  | nil =>
    obtain rfl := Except.ok.inj h
    exact .nil st
  | cons event rest ih =>
    rw [parseEvents] at h
    split at h
    · cases h
    case h_2 st₁ h₁ => exact .cons h₁ (ih h)

theorem Runs.split {st st' : ParseState} {first second : List XmlEvent} (h : Runs st (first ++ second) st') :
    ∃ st₁, Runs st first st₁ ∧ Runs st₁ second st' := by
  induction first generalizing st with
  | nil => exact ⟨st, .nil st, h⟩
  | cons event rest ih =>
    cases h with
    | cons h hr =>
      obtain ⟨st₁, hfirst, hsecond⟩ := ih hr
      exact ⟨st₁, .cons h hfirst, hsecond⟩

/-! ## What a handler that succeeds has done -/

/-- What routing relies on of a device and of a stream. -/
def deviceFrame (dev : Device) : Mask × Int := (dev.type, dev.use_count)

def streamFrame (s : PStream) : Option String × Int × Mask :=
  (s.stream.name, s.stream.ref_count, s.stream.current_devices)

section

variable {host : Host} {values : Attribs} {st st' : ParseState}

theorem parseCtlStart_inv (h : parseCtlStart host values st = .ok st') :
    ∃ index, attribToUint INVALID_CTL_INDEX values .index = some index ∧
      st.addCtl ⟨text values .name, index, text values .val⟩ = .ok st' := by
  obtain ⟨-, h⟩ := of_guard h
  split at h
  case h_1 => cases h
  case h_2 index hindex =>
    dsimp only at h
    split at h
    · exact ⟨index, hindex, h⟩
    · cases h

theorem parsePathStart_inv (h : parsePathStart host values st = .ok st') :
    ∃ d id names, st.current.device = some d ∧ st' = { st with
      path_names := names
      devices := st.devices.modify d fun dev => { dev with paths := dev.paths ++ [⟨id, []⟩] }
      current := { st.current with
        path := some (.device d ((st.devices[d]?.map fun dev => dev.paths.length).getD 0)) } } := by
  unfold parsePathStart at h
  split at h
  case h_1 => cases h
  case h_2 d hd =>
    obtain ⟨-, h⟩ := of_guard h
    exact ⟨d, _, _, hd, (Except.ok.inj h).symm⟩

theorem parseUsecaseStart_inv (h : parseUsecaseStart host values st = .ok st') :
    ∃ s name, st.current.stream = some s ∧ st' = { st with
      streams := st.streams.modify s fun str => { str with usecases := str.usecases ++ [⟨name, []⟩] }
      current := { st.current with
        usecase := some (s, (st.streams[s]?.map fun str => str.usecases.length).getD 0) } } := by
  unfold parseUsecaseStart at h
  split at h
  case h_1 => cases h
  case h_2 s hs =>
    obtain ⟨-, h⟩ := of_guard h
    exact ⟨s, _, hs, (Except.ok.inj h).symm⟩

theorem parseCaseStart_inv (h : parseCaseStart host values st = .ok st') :
    ∃ s u name, st.current.usecase = some (s, u) ∧ st' = { st with
      streams := st.streams.modify s fun str =>
        { str with usecases := str.usecases.modify u fun uc => { uc with cases := uc.cases ++ [⟨name, []⟩] } }
      current := { st.current with
        scase := some (s, u,
          ((st.streams[s]?.bind fun str => str.usecases[u]?).map fun uc => uc.cases.length).getD 0) } } := by
  unfold parseCaseStart at h
  split at h
  case h_1 => cases h
  case h_2 s u hsu =>
    obtain ⟨-, h⟩ := of_guard h
    exact ⟨s, u, _, hsu, (Except.ok.inj h).symm⟩

/-- Only a type that is not declared on its side is added. -/
theorem parseDeviceStart_inv (h : parseDeviceStart host values st = .ok st') :
    ∃ flag output input, flag ∈ deviceTable.map Prod.snd ∧
      ¬ (flag ≠ 0 ∧ flag &&& (if flag &&& AUDIO_DEVICE_BIT_IN ≠ 0 then st.supported_input_devices
        else st.supported_output_devices) = flag) ∧
      (if flag &&& AUDIO_DEVICE_BIT_IN ≠ 0 then
          output = st.supported_output_devices ∧ input = st.supported_input_devices ||| flag
        else output = st.supported_output_devices ||| flag ∧ input = st.supported_input_devices) ∧
      st' = { st with
        supported_output_devices := output
        supported_input_devices := input
        devices := st.devices ++ [⟨flag, 0, []⟩]
        current := { st.current with device := some st.devices.length } } := by
  unfold parseDeviceStart at h
  split at h
  case h_1 => cases h
  case h_2 name flag hfind =>
    obtain ⟨hnew, h⟩ := of_guard h
    obtain ⟨-, h⟩ := of_guard h
    refine ⟨flag, _, _, List.mem_map.mpr ⟨_, List.mem_of_find?_eq_some hfind, rfl⟩, hnew, ?_,
      (Except.ok.inj h).symm⟩
    by_cases hin : flag &&& AUDIO_DEVICE_BIT_IN ≠ 0
    · simp only [if_pos hin, and_self]
    · simp only [if_neg hin, and_self]

/-- Only a name that no stream has is added. -/
theorem parseStreamStart_inv (h : parseStreamStart host values st = .ok st') :
    ∃ type maxref, ¬ (values .name ≠ none ∧ st.streams.any (fun s => s.stream.name = values .name) = true) ∧
      st' = { st with
        streams := st.streams ++ [⟨⟨type, values .name, 0, maxref, -1, -1, 0⟩, none, none, []⟩]
        current := { st.current with stream := some st.streams.length } } := by
  obtain ⟨-, h⟩ := of_guard h
  obtain ⟨hnew, h⟩ := of_guard h
  split at h
  case h_2 => cases h
  case h_1 type maxref htype hmax =>
    split at h
    case isFalse => cases h
    case isTrue => exact ⟨type, maxref.toInt, hnew, (Except.ok.inj h).symm⟩

/-- A change to a stream that leaves its use cases and what routing relies on. -/
def Inessential (f : PStream → PStream) : Prop :=
  ∀ s, (f s).usecases = s.usecases ∧ streamFrame (f s) = streamFrame s

theorem parseEnableDisableStart_inv {isEnable : Bool}
    (h : parseEnableDisableStart isEnable host values st = .ok st') :
    ∃ f, Inessential f ∧ st.modifyStream f = .ok st' := by
  unfold parseEnableDisableStart at h
  split at h
  case h_1 => cases h
  case h_2 i hi =>
    refine ⟨_, fun s => ?_, h⟩
    cases isEnable <;> exact ⟨rfl, rfl⟩

theorem parseStreamCtlStart_inv (h : parseStreamCtlStart host values st = .ok st') :
    ∃ f, Inessential f ∧ st.modifyStream f = .ok st' := by
  unfold parseStreamCtlStart at h
  split at h
  case h_2 => cases h
  case h_1 ctl index hctl hindex =>
    obtain ⟨-, h⟩ := of_guard h
    obtain ⟨min, -, h⟩ := bind_eq_ok h
    obtain ⟨max, -, h⟩ := bind_eq_ok h
    refine ⟨_, fun s => ?_, h⟩
    split <;> exact ⟨rfl, rfl⟩

theorem parseMixerStart_inv (h : parseMixerStart host values st = .ok st') :
    ∃ mixer, st' = { st with
      mixer := some mixer
      stack := st.stack.modify 1 fun entry => { entry with valid_subelem := [.device, .stream] } } := by
  unfold parseMixerStart at h
  split at h
  case h_1 => cases h
  case h_2 card hcard =>
    split at h
    case h_1 => cases h
    case h_2 mixer hmixer => exact ⟨mixer, (Except.ok.inj h).symm⟩

theorem parseCodecProbeStart_inv (h : parseCodecProbeStart host values st = .ok st') :
    st' = { st with probe_file := values .file, current := { st.current with codec_probe := true } } := by
  unfold parseCodecProbeStart at h
  split at h
  · exact (Except.ok.inj h).symm
  · cases h

theorem parseCodecCaseStart_inv (h : parseCodecCaseStart host values st = .ok st') :
    ∃ c, st' = { st with codec_cases := st.codec_cases ++ [c] } := by
  obtain ⟨-, h⟩ := of_guard h
  obtain ⟨-, h⟩ := of_guard h
  exact ⟨_, (Except.ok.inj h).symm⟩

/-- A probe that does not stop the parser leaves the state. -/
theorem parseCodecProbeEnd_inv (h : parseCodecProbeEnd host st = .ok st') :
    st' = { st with current := { st.current with codec_probe := false } } := by
  unfold parseCodecProbeEnd probeConfigFile at h
  split at h
  · exact (Except.ok.inj h).symm
  · split at h
    · exact (Except.ok.inj h).symm
    · split at h
      · cases h
      · cases h

theorem parseSectionStart_inv {name : String} {attribs : XmlAttribs}
    (h : parseSectionStart host name attribs st = .ok st') :
    ∃ top rest e values, st.stack = top :: rest ∧ resolve top.valid_subelem name = some e ∧
      extractAttribs e attribs = some values ∧
      e.start host values { st with stack := ⟨e, e.valid_subelem⟩ :: st.stack } = .ok st' := by
  unfold parseSectionStart at h
  split at h
  case h_1 => cases h
  case h_2 top rest hstack =>
    split at h
    case h_1 => cases h
    case h_2 e he =>
      obtain ⟨-, h⟩ := of_guard h
      split at h
      case h_1 => cases h
      case h_2 values hvalues => exact ⟨top, rest, e, values, hstack, he, hvalues, h⟩

theorem parseSectionEnd_inv (h : parseSectionEnd host st = .ok st') :
    ∃ top rest st₁, st.stack = top :: rest ∧ top.elem.stop host st = .ok st₁ ∧
      st' = { st₁ with stack := st₁.stack.tail } := by
  unfold parseSectionEnd at h
  split at h
  case h_1 => cases h
  case h_2 top rest hstack =>
    obtain ⟨st₁, hstop, h⟩ := bind_eq_ok h
    exact ⟨top, rest, st₁, hstack, hstop, (Except.ok.inj h).symm⟩

end

/-! ## The configuration that is left -/

/-- What routing relies on: the types and counts of the devices, the names and counts of
the streams, and the devices declared so far. -/
structure Frame where
  devices : List (Mask × Int)
  streams : List (Option String × Int × Mask)
  supported_output_devices : Mask
  supported_input_devices : Mask

def ParseState.frame (st : ParseState) : Frame where
  devices := st.devices.map deviceFrame
  streams := st.streams.map streamFrame
  supported_output_devices := st.supported_output_devices
  supported_input_devices := st.supported_input_devices

/-- The devices declared so far on the side of a type. -/
def Frame.existing (fr : Frame) (t : Mask) : Mask :=
  if t &&& AUDIO_DEVICE_BIT_IN ≠ 0 then fr.supported_input_devices else fr.supported_output_devices

def Frame.addDevice (fr : Frame) (flag : Mask) : Frame where
  devices := fr.devices ++ [(flag, 0)]
  streams := fr.streams
  supported_output_devices :=
    if flag &&& AUDIO_DEVICE_BIT_IN ≠ 0 then fr.supported_output_devices else fr.supported_output_devices ||| flag
  supported_input_devices :=
    if flag &&& AUDIO_DEVICE_BIT_IN ≠ 0 then fr.supported_input_devices ||| flag else fr.supported_input_devices

def Frame.addStream (fr : Frame) (name : Option String) : Frame :=
  { fr with streams := fr.streams ++ [(name, 0, 0)] }

/-- What the handlers keep. -/
structure Frame.Ok (fr : Frame) : Prop where
  in_table : ∀ d ∈ fr.devices, d.1 ∈ deviceTable.map Prod.snd
  unused : ∀ d ∈ fr.devices, d.2 = 0
  distinct : fr.devices.Pairwise fun a b => a.1 ≠ 0 → a.1 ≠ b.1
  declared : ∀ d ∈ fr.devices, d.1 &&& fr.existing d.1 = d.1
  closed : ∀ s ∈ fr.streams, s.2 = (0, 0)
  named : fr.streams.Pairwise fun a b => a.1 = b.1 → a.1 = none

section

variable {st st' : ParseState} {host : Host} {values : Attribs}

theorem addCtl_frame {c : Ctl} (h : st.addCtl c = .ok st') : st'.frame = st.frame := by
  unfold ParseState.addCtl at h
  split at h
  case h_1 =>
    obtain rfl := Except.ok.inj h
    rfl
  case h_2 =>
    obtain rfl := Except.ok.inj h
    simp only [ParseState.frame]
    rw [map_modify_same]
    exact fun _ => rfl
  case h_3 =>
    split at h
    case h_1 =>
      obtain rfl := Except.ok.inj h
      simp only [ParseState.frame]
      rw [map_modify_same]
      exact fun _ => rfl
    case h_2 => cases h

theorem modifyStream_frame {f : PStream → PStream} (hf : ∀ s, streamFrame (f s) = streamFrame s)
    (h : st.modifyStream f = .ok st') : st'.frame = st.frame := by
  unfold ParseState.modifyStream at h
  split at h
  case h_1 => cases h
  case h_2 =>
    obtain rfl := Except.ok.inj h
    simp only [ParseState.frame]
    rw [map_modify_same hf]

/-- Only a device or a stream changes the frame. -/
theorem start_frame {e : Elem} (hdevice : e ≠ .device) (hstream : e ≠ .stream)
    (h : e.start host values st = .ok st') : st'.frame = st.frame := by
  cases e with
  | device => exact absurd rfl hdevice
  | stream => exact absurd rfl hstream
  | ctl =>
    obtain ⟨index, -, h⟩ := @parseCtlStart_inv host values st st' h
    exact addCtl_frame h
  | path =>
    obtain ⟨d, id, names, -, rfl⟩ := @parsePathStart_inv host values st st' h
    simp only [ParseState.frame]
    rw [map_modify_same]
    exact fun _ => rfl
  | usecase =>
    obtain ⟨s, name, -, rfl⟩ := @parseUsecaseStart_inv host values st st' h
    simp only [ParseState.frame]
    rw [map_modify_same]
    exact fun _ => rfl
  | scase =>
    obtain ⟨s, u, name, -, rfl⟩ := @parseCaseStart_inv host values st st' h
    simp only [ParseState.frame]
    rw [map_modify_same]
    exact fun _ => rfl
  | enable =>
    obtain ⟨f, hf, h⟩ := @parseEnableDisableStart_inv host values st st' true h
    exact modifyStream_frame (fun s => (hf s).2) h
  | disable =>
    obtain ⟨f, hf, h⟩ := @parseEnableDisableStart_inv host values st st' false h
    exact modifyStream_frame (fun s => (hf s).2) h
  | stream_ctl =>
    obtain ⟨f, hf, h⟩ := @parseStreamCtlStart_inv host values st st' h
    exact modifyStream_frame (fun s => (hf s).2) h
  | init =>
    obtain rfl := Except.ok.inj h
    rfl
  | audiohal =>
    obtain rfl := Except.ok.inj h
    rfl
  | mixer =>
    obtain ⟨mixer, rfl⟩ := @parseMixerStart_inv host values st st' h
    rfl
  | codec_probe =>
    obtain rfl := @parseCodecProbeStart_inv host values st st' h
    rfl
  | codec_case =>
    obtain ⟨c, rfl⟩ := @parseCodecCaseStart_inv host values st st' h
    rfl

theorem stop_frame {e : Elem} (h : e.stop host st = .ok st') : st'.frame = st.frame := by
  cases e with
  | codec_probe =>
    obtain rfl := @parseCodecProbeEnd_inv host st st' h
    rfl
  | _ =>
    obtain rfl := Except.ok.inj h
    rfl

theorem parseDeviceStart_frame (h : parseDeviceStart host values st = .ok st') :
    ∃ flag ∈ deviceTable.map Prod.snd, ¬ (flag ≠ 0 ∧ flag &&& st.frame.existing flag = flag) ∧
      st'.frame = st.frame.addDevice flag := by
  obtain ⟨flag, output, input, htable, hnew, hdeclared, rfl⟩ := parseDeviceStart_inv h
  refine ⟨flag, htable, hnew, ?_⟩
  by_cases hin : flag &&& AUDIO_DEVICE_BIT_IN ≠ 0
  · rw [if_pos hin] at hdeclared
    obtain ⟨rfl, rfl⟩ := hdeclared
    simp only [ParseState.frame, Frame.addDevice, if_pos hin, List.map_append]
    rfl
  · rw [if_neg hin] at hdeclared
    obtain ⟨rfl, rfl⟩ := hdeclared
    simp only [ParseState.frame, Frame.addDevice, if_neg hin, List.map_append]
    rfl

theorem parseStreamStart_frame (h : parseStreamStart host values st = .ok st') :
    ∃ name, (name ≠ none → ∀ s ∈ st.frame.streams, s.1 ≠ name) ∧ st'.frame = st.frame.addStream name := by
  obtain ⟨type, maxref, hnew, rfl⟩ := parseStreamStart_inv h
  refine ⟨values .name, fun hsome s hs heq => hnew ⟨hsome, ?_⟩, ?_⟩
  · obtain ⟨str, hstr, rfl⟩ := List.mem_map.mp hs
    exact List.any_eq_true.mpr ⟨str, hstr, decide_eq_true heq⟩
  · simp [ParseState.frame, Frame.addStream, streamFrame]

end

/-- What is declared only grows, and holds the device that is added. -/
theorem existing_addDevice (fr : Frame) (flag t : Mask) :
    Incl (fr.existing t) ((fr.addDevice flag).existing t) ∧ Incl flag ((fr.addDevice flag).existing flag) := by
  unfold Frame.existing Frame.addDevice
  constructor
  · by_cases ht : t &&& AUDIO_DEVICE_BIT_IN ≠ 0 <;> by_cases hflag : flag &&& AUDIO_DEVICE_BIT_IN ≠ 0
    · simp only [if_pos ht, if_pos hflag]
      exact incl_or_left _ _
    · simp only [if_pos ht, if_neg hflag]
      exact fun _ h => h
    · simp only [if_neg ht, if_pos hflag]
      exact fun _ h => h
    · simp only [if_neg ht, if_neg hflag]
      exact incl_or_left _ _
  · by_cases hflag : flag &&& AUDIO_DEVICE_BIT_IN ≠ 0
    · simp only [if_pos hflag]
      exact incl_or_right _ _
    · simp only [if_neg hflag]
      exact incl_or_right _ _

theorem Frame.Ok.addDevice {fr : Frame} (h : fr.Ok) {flag : Mask} (htable : flag ∈ deviceTable.map Prod.snd)
    (hnew : ¬ (flag ≠ 0 ∧ flag &&& fr.existing flag = flag)) : (fr.addDevice flag).Ok := by
  have hmem : ∀ d ∈ (fr.addDevice flag).devices, d ∈ fr.devices ∨ d = (flag, 0) := by
    intro d hd
    rcases List.mem_append.mp hd with hd | hd
    · exact Or.inl hd
    · exact Or.inr (List.mem_singleton.mp hd)
  refine ⟨fun d hd => ?_, fun d hd => ?_, ?_, fun d hd => ?_, h.closed, h.named⟩
  · rcases hmem d hd with hd | rfl
    · exact h.in_table d hd
    · exact htable
  · rcases hmem d hd with hd | rfl
    · exact h.unused d hd
    · rfl
  · refine List.pairwise_append.mpr ⟨h.distinct, List.pairwise_singleton _ _, fun d hd d' hd' hzero heq => ?_⟩
    rw [List.mem_singleton.mp hd'] at heq
    have hdeclared := h.declared d hd
    rw [heq] at hzero hdeclared
    exact hnew ⟨hzero, hdeclared⟩
  · obtain ⟨hgrows, hflag⟩ := existing_addDevice fr flag d.1
    rcases hmem d hd with hd | rfl
    · exact and_eq_self_iff.mpr fun i hi => hgrows i (and_eq_self_iff.mp (h.declared d hd) i hi)
    · exact and_eq_self_iff.mpr hflag

theorem Frame.Ok.addStream {fr : Frame} (h : fr.Ok) {name : Option String}
    (hnew : name ≠ none → ∀ s ∈ fr.streams, s.1 ≠ name) : (fr.addStream name).Ok := by
  refine ⟨h.in_table, h.unused, h.distinct, h.declared, fun s hs => ?_, ?_⟩
  · rcases List.mem_append.mp hs with hs | hs
    · exact h.closed s hs
    · rw [List.mem_singleton.mp hs]
  · refine List.pairwise_append.mpr ⟨h.named, List.pairwise_singleton _ _, fun s hs s' hs' heq => ?_⟩
    rw [List.mem_singleton.mp hs'] at heq
    change s.1 = name at heq
    by_contra hsome
    exact hnew (heq ▸ hsome) s hs heq

/-- **Step lemma.** -/
theorem handle_ok {host : Host} {st st' : ParseState} {event : XmlEvent} (hok : st.frame.Ok)
    (h : handle host st event = .ok st') : st'.frame.Ok := by
  cases event with
  | start name attribs =>
    obtain ⟨top, rest, e, values, -, -, -, h⟩ := @parseSectionStart_inv host st st' name attribs h
    by_cases hdevice : e = .device
    · subst hdevice
      obtain ⟨flag, htable, hnew, hframe⟩ := parseDeviceStart_frame h
      rw [hframe]
      exact hok.addDevice htable hnew
    · by_cases hstream : e = .stream
      · subst hstream
        obtain ⟨name, hnew, hframe⟩ := parseStreamStart_frame h
        rw [hframe]
        exact hok.addStream hnew
      · rw [start_frame hdevice hstream h]
        exact hok
  | stop name =>
    obtain ⟨top, rest, st₁, -, hstop, rfl⟩ := @parseSectionEnd_inv host st st' h
    show st₁.frame.Ok
    rw [stop_frame hstop]
    exact hok

theorem Runs.ok {st st' : ParseState} {events : List XmlEvent} (h : Runs st events st') (hok : st.frame.Ok) :
    st'.frame.Ok := by
  induction h with
  | nil => exact hok
  | cons h _ ih => exact ih (handle_ok hok h)

/-- **What routing starts from.**  An accepted document leaves a configuration as routing
expects it, with every stream name declared once. -/
theorem parsed_of_accepted {hosts : Nat → Host} {file : String} {cases : List CodecCase} {doc : Document}
    {st : ParseState} (h : parseDocument hosts file cases doc = .ok st) :
    st.configMgr.Parsed ∧ st.configMgr.streams.Pairwise fun a b => a.name = b.name → a.name = none := by
  have hstart : (initState file cases).frame.Ok :=
    ⟨by simp [initState, ParseState.frame], by simp [initState, ParseState.frame], .nil,
      by simp [initState, ParseState.frame], by simp [initState, ParseState.frame], .nil⟩
  have hok := (runs_of_parseEvents h).ok hstart
  refine ⟨⟨fun dev hdev => ?_, ?_, fun dev hdev => ?_, fun s hs => ?_⟩, ?_⟩
  · exact hok.in_table _ (List.mem_map_of_mem (f := deviceFrame) hdev)
  · exact List.pairwise_map.mp hok.distinct
  · exact hok.unused _ (List.mem_map_of_mem (f := deviceFrame) hdev)
  · obtain ⟨str, hstr, rfl⟩ := List.mem_map.mp hs
    exact Prod.mk.inj (hok.closed _ (List.mem_map_of_mem (f := streamFrame) hstr))
  · exact List.pairwise_map.mpr (List.pairwise_map.mp hok.named)

end MochaHal.Audio.Parser
