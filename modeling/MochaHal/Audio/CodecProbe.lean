import MochaHal.Audio.ParseStack
import MochaHal.Lib.Reach

/-! The loop of `parse_config_file`, which a `<codec_probe>` sends to another file.  The
codec cases are kept from file to file and searched from the first one, so a case of an
earlier file may answer for the file that is read (`codec_probe_per_file_iff`). -/

namespace MochaHal.Audio.Parser

open MochaHal.Reach

/-! ## The source -/

/-- The text of a file up to the end of its first line, which is part of it. -/
def lineOf : List Char → List Char
  | [] => []
  | c :: rest => if c = '\n' then [c] else c :: lineOf rest

/-- `fgets` into a buffer of `size` bytes.  A character stands for a byte, and the string
in the buffer ends at a NUL. -/
def fgets (size : Nat) (content : String) : Option String :=
  if content = "" then none
  else some (String.ofList (((lineOf content.toList).take (size - 1)).takeWhile fun c => c.toNat ≠ 0))

/-- What `snprintf` leaves of a text in a buffer of `size` bytes. -/
def snprintf (size : Nat) (text : String) : String := String.ofList (text.toList.take (size - 1))

/-- The size of `buf` in `probe_config_file`. -/
def PROBE_BUF_SIZE : Nat := 40

/-- A file of settings: the events up to its end, or up to the first error in its syntax. -/
structure XmlFile where
  events : List XmlEvent
  well_formed : Bool
  deriving DecidableEq

abbrev Files := String → Option XmlFile

/-- One turn of the loop: the file that is opened and the state it is parsed into. -/
structure Turn where
  path : String
  state : ParseState

/-- `open_config_file` without a file. -/
def firstTurn (property : String) : Turn where
  path := snprintf 80 ("/vendor/etc/audio." ++ property ++ ".xml")
  state := initState (snprintf 40 ("audio." ++ property ++ ".xml")) []

/-- `open_config_file` and the start of `do_parse` for another file.  The probe file is
forgotten, the codec cases are not. -/
def nextTurn (file : String) (st : ParseState) : Turn where
  path := snprintf 80 ("/vendor/etc/" ++ file)
  state := { st with
    cur_xml_file := file
    probe_file := none
    current := { st.current with codec_probe := false }
    stack := [⟨.ctl, [.audiohal]⟩] }

/-- How a turn ends. -/
inductive TurnResult
  | finished (st : ParseState)
  | redirected (next : Turn)
  | failed (stop : Stop)

/-- `do_parse` on the events of a file. -/
def doParse (hosts : Nat → Host) (well_formed : Bool) (st : ParseState) : List XmlEvent → TurnResult
  | [] => if well_formed then .finished st else .failed (.error (-EINVAL))
  | event :: rest =>
    match handle (hosts 0) st event with
    | .ok st => doParse (fun n => hosts (n + 1)) well_formed st rest
    | .error (.redirect file) => .redirected (nextTurn file st)
    | .error stop => .failed stop

def parseTurn (files : Files) (hosts : Nat → Host) (t : Turn) : TurnResult :=
  match files t.path with
  | none => .failed (.error (-ENOMEM))
  | some file => doParse hosts file.well_formed t.state file.events

/-- The loop of `parse_config_file` goes on. -/
def Redirects (files : Files) (t : Turn) (hosts : Nat → Host) (t' : Turn) : Prop :=
  parseTurn files hosts t = .redirected t'

/-- The turns of the loop. -/
abbrev Turns (files : Files) (property : String) : Turn → Prop :=
  Reachable (fun t => t = firstTurn property) (Redirects files) fun _ _ => True

/-- What comes after a `<codec_probe>`: the rest of the file, another file or an error. -/
inductive Outcome
  | continues
  | loads (path : String)
  | rejected
  deriving DecidableEq, Repr

def afterProbe (host : Host) (st : ParseState) : Outcome :=
  match handle host st (.stop "codec_probe") with
  | .ok _ => .continues
  | .error (.redirect file) => .loads (nextTurn file st).path
  | .error _ => .rejected

/-! ## A file for itself -/

/-- The first line of the probe file. -/
def firstLine (content : String) : Option String :=
  if content = "" then none else some (String.ofList (content.toList.takeWhile (· ≠ '\n')))

/-- The cases between the tags of a `<codec_probe>`. -/
def Forest.codecCases : Forest → List CodecCase
  | .nil => []
  | .elem _ attribs _ rest =>
    ((extractAttribs .codec_case attribs).map fun values => CodecCase.mk (text values .name) (text values .file)).toList ++
      rest.codecCases

/-- The first case for a line of the probe file. -/
def caseFor (cases : List CodecCase) (line : Option String) : Option CodecCase :=
  line.bind fun line => cases.find? fun c => c.codec_name = probeTrimSpaces line

/-- What its own cases make of a file: the first one for the first line names the file to
load, unless that is the file it stands in. -/
def ownOutcome (file : String) (own : List CodecCase) (content : String) : Outcome :=
  match caseFor own (firstLine content) with
  | none => .continues
  | some c => if c.file = file then .rejected else .loads ("/vendor/etc/" ++ c.file)

/-- `st` is the state at the end of a `<codec_probe>` of the file that a turn reads, after
`before` and the tags of `block`. -/
structure ProbeRead (files : Files) (hosts : Nat → Host) (t : Turn) (before : List XmlEvent) (attribs : XmlAttribs)
    (block : Forest) (st : ParseState) : Prop where
  file : ∃ file rest, files t.path = some file ∧
    file.events = before ++ .start "codec_probe" attribs :: (block.events ++ .stop "codec_probe" :: rest)
  parsed : parseEvents hosts t.state (before ++ .start "codec_probe" attribs :: block.events) = .ok st

/-- The case that answers, `found`, does what the case that should, `own`, says. -/
def SameTarget (file : String) : Option CodecCase → Option CodecCase → Prop
  | none, none => True
  | some found, some own =>
    if own.file = file then found.file = file
    else found.file ≠ file ∧ snprintf 80 ("/vendor/etc/" ++ found.file) = "/vendor/etc/" ++ own.file
  | _, _ => False

instance (file : String) : (found own : Option CodecCase) → Decidable (SameTarget file found own)
  | none, none => inferInstanceAs (Decidable True)
  | some found, some own => inferInstanceAs (Decidable (if own.file = file then found.file = file
      else found.file ≠ file ∧ snprintf 80 ("/vendor/etc/" ++ found.file) = "/vendor/etc/" ++ own.file))
  | some _, none => inferInstanceAs (Decidable False)
  | none, some _ => inferInstanceAs (Decidable False)

/-- No case of an earlier file is named like the line in the buffer, and the buffer cuts
nothing off that matters; or the first one that is named so leads where the file's own
case for the line leads. -/
def OwnDecides (file : String) (inherited own : List CodecCase) (content : String) : Prop :=
  match caseFor inherited (fgets PROBE_BUF_SIZE content) with
  | none => SameTarget file (caseFor own (fgets PROBE_BUF_SIZE content)) (caseFor own (firstLine content))
  | some found => SameTarget file (some found) (caseFor own (firstLine content))

/-! ## What the handlers do to the cases -/

section

variable {host : Host} {values : Attribs} {st st' : ParseState}

/-- The fields that a probe works on. -/
def ParseState.probe (st : ParseState) : Option String × List CodecCase × String :=
  (st.probe_file, st.codec_cases, st.cur_xml_file)

theorem addCtl_probe {c : Ctl} (h : st.addCtl c = .ok st') : st'.probe = st.probe := by
  unfold ParseState.addCtl at h
  split at h
  case h_1 =>
    obtain rfl := Except.ok.inj h
    rfl
  case h_2 =>
    obtain rfl := Except.ok.inj h
    rfl
  case h_3 =>
    split at h
    case h_1 =>
      obtain rfl := Except.ok.inj h
      rfl
    case h_2 => cases h

theorem modifyStream_probe {f : PStream → PStream} (h : st.modifyStream f = .ok st') : st'.probe = st.probe := by
  unfold ParseState.modifyStream at h
  split at h
  case h_1 => cases h
  case h_2 =>
    obtain rfl := Except.ok.inj h
    rfl

/-- Only a probe and its cases change these fields. -/
theorem start_probe {e : Elem} (hprobe : e ≠ .codec_probe) (hcase : e ≠ .codec_case)
    (h : e.start host values st = .ok st') : st'.probe = st.probe := by
  cases e with
  | codec_probe => exact absurd rfl hprobe
  | codec_case => exact absurd rfl hcase
  | ctl =>
    obtain ⟨index, -, h⟩ := @parseCtlStart_inv host values st st' h
    exact addCtl_probe h
  | path =>
    obtain ⟨d, id, names, -, rfl⟩ := @parsePathStart_inv host values st st' h
    rfl
  | device =>
    obtain ⟨flag, output, input, -, -, -, rfl⟩ := @parseDeviceStart_inv host values st st' h
    rfl
  | stream =>
    obtain ⟨type, maxref, -, rfl⟩ := @parseStreamStart_inv host values st st' h
    rfl
  | usecase =>
    obtain ⟨s, name, -, rfl⟩ := @parseUsecaseStart_inv host values st st' h
    rfl
  | scase =>
    obtain ⟨s, u, name, -, rfl⟩ := @parseCaseStart_inv host values st st' h
    rfl
  | enable =>
    obtain ⟨f, -, h⟩ := @parseEnableDisableStart_inv host values st st' true h
    exact modifyStream_probe h
  | disable =>
    obtain ⟨f, -, h⟩ := @parseEnableDisableStart_inv host values st st' false h
    exact modifyStream_probe h
  | stream_ctl =>
    obtain ⟨f, -, h⟩ := @parseStreamCtlStart_inv host values st st' h
    exact modifyStream_probe h
  | mixer =>
    obtain ⟨mixer, rfl⟩ := @parseMixerStart_inv host values st st' h
    rfl
  | init | audiohal =>
    obtain rfl := Except.ok.inj h
    rfl

theorem stop_probe {e : Elem} (h : e.stop host st = .ok st') : st'.probe = st.probe ∧ st'.stack = st.stack := by
  cases e with
  | codec_probe =>
    obtain rfl := @parseCodecProbeEnd_inv host st st' h
    exact ⟨rfl, rfl⟩
  | _ =>
    obtain rfl := Except.ok.inj h
    exact ⟨rfl, rfl⟩

theorem start_stack_eq {e : Elem} (h : e.start host values st = .ok st') : st'.stack = stackAfter e st.stack := by
  have hstack := @start_stack host values st st.stack e
  rw [show st.withStack st.stack = st from rfl, h] at hstack
  exact congrArg ParseState.stack (Except.ok.inj hstack)

end

/-! ## Before the probe -/

/-- As long as a file has no probe of its own, it has no case of its own either. -/
structure BeforeProbe (t : Turn) (st : ParseState) : Prop where
  file : st.cur_xml_file = t.state.cur_xml_file
  cases_kept : st.probe_file = none → st.codec_cases = t.state.codec_cases
  no_case : st.probe_file = none → ∀ entry ∈ st.stack, Elem.codec_case ∉ entry.valid_subelem

theorem mem_stackAfter {e : Elem} {stack : List StackEntry} {entry : StackEntry} (h : entry ∈ stackAfter e stack) :
    entry ∈ stack ∨ entry.valid_subelem = [.device, .stream] := by
  unfold stackAfter at h
  split at h
  case isFalse => exact .inl h
  case isTrue =>
    cases stack with
    | nil => exact .inl h
    | cons top rest =>
      cases rest with
      | nil => exact .inl h
      | cons parent rest =>
        rcases List.mem_cons.mp h with rfl | h
        · exact .inl (List.mem_cons_self)
        · rcases List.mem_cons.mp h with rfl | h
          · exact .inr rfl
          · exact .inl (List.mem_cons_of_mem _ (List.mem_cons_of_mem _ h))

theorem valid_subelem_codec_case {e : Elem} (h : Elem.codec_case ∈ e.valid_subelem) : e = .codec_probe := by
  revert h
  cases e <;> decide

theorem resolve_eq_some {valid : List Elem} {name : String} {e : Elem} (h : resolve valid name = some e) :
    e ∈ valid ∧ e.name = name :=
  of_decide_eq_true (List.find?_some (p := fun e => decide (e ∈ valid ∧ e.name = name)) h)

/-- A `<codec_probe>` has to name the probe file. -/
theorem extractAttribs_probe_file {attribs : XmlAttribs} {values : Attribs}
    (h : extractAttribs .codec_probe attribs = some values) : values .file ≠ none := by
  unfold extractAttribs at h
  split at h
  case h_1 => cases h
  case h_2 =>
    split at h
    case isFalse => cases h
    case isTrue hrequired =>
      obtain rfl := Option.some.inj h
      exact Option.isSome_iff_ne_none.mp (hrequired .file (by decide))

theorem handle_beforeProbe {t : Turn} {host : Host} {event : XmlEvent} {st st' : ParseState} (hb : BeforeProbe t st)
    (h : handle host st event = .ok st') : BeforeProbe t st' := by
  cases event with
  | start name attribs =>
    obtain ⟨top, rest, e, values, hstack, he, hvalues, h⟩ := parseSectionStart_inv h
    have hmem := (resolve_eq_some he).1
    have hst' := start_stack_eq h
    by_cases hprobe : e = .codec_probe
    · subst hprobe
      obtain rfl := @parseCodecProbeStart_inv host values _ st' h
      have hnamed := extractAttribs_probe_file hvalues
      exact ⟨hb.file, fun hnone => absurd hnone hnamed, fun hnone => absurd hnone hnamed⟩
    · by_cases hcase : e = .codec_case
      · subst hcase
        obtain ⟨c, rfl⟩ := @parseCodecCaseStart_inv host values _ st' h
        have habsurd : st.probe_file ≠ none := fun hnone =>
          hb.no_case hnone top (by rw [hstack]; exact List.mem_cons_self) hmem
        exact ⟨hb.file, fun hnone => absurd hnone habsurd, fun hnone => absurd hnone habsurd⟩
      · obtain ⟨hfile, hcases, hxml⟩ := Prod.mk.inj (start_probe hprobe hcase h) |>.imp_right Prod.mk.inj
        refine ⟨hxml.trans hb.file, fun hnone => hcases.trans (hb.cases_kept (hfile.symm.trans hnone)),
          fun hnone entry hentry => ?_⟩
        rw [hst'] at hentry
        rcases mem_stackAfter hentry with hentry | hentry
        · rcases List.mem_cons.mp hentry with rfl | hentry
          · exact fun hin => hprobe (valid_subelem_codec_case hin)
          · exact hb.no_case (hfile.symm.trans hnone) entry hentry
        · rw [hentry]
          decide
  | stop name =>
    obtain ⟨top, rest, st₁, hstack, hstop, rfl⟩ := parseSectionEnd_inv h
    obtain ⟨hprobe, hsame⟩ := stop_probe hstop
    obtain ⟨hfile, hcases, hxml⟩ := Prod.mk.inj hprobe |>.imp_right Prod.mk.inj
    refine ⟨hxml.trans hb.file, fun hnone => hcases.trans (hb.cases_kept (hfile.symm.trans hnone)),
      fun hnone entry hentry => ?_⟩
    rw [hsame] at hentry
    exact hb.no_case (hfile.symm.trans hnone) entry (List.mem_of_mem_tail hentry)

theorem runs_beforeProbe {t : Turn} {events : List XmlEvent} {st st' : ParseState} (hb : BeforeProbe t st)
    (h : Runs st events st') : BeforeProbe t st' := by
  induction h with
  | nil st => exact hb
  | cons h hr ih => exact ih (handle_beforeProbe hb h)

/-! ## Inside the probe -/

theorem handle_case {host : Host} {name : String} {attribs : XmlAttribs} {st st' : ParseState}
    {below : List StackEntry} (hstack : st.stack = ⟨.codec_probe, [.codec_case]⟩ :: below)
    (h : handle host st (.start name attribs) = .ok st') :
    ∃ values, extractAttribs .codec_case attribs = some values ∧ st' = { st with
      codec_cases := st.codec_cases ++ [⟨text values .name, text values .file⟩]
      stack := ⟨.codec_case, []⟩ :: st.stack } := by
  obtain ⟨top, rest, e, values, htop, he, hvalues, h⟩ := parseSectionStart_inv h
  obtain ⟨rfl, rfl⟩ := List.cons.inj (hstack.symm.trans htop)
  obtain rfl := List.mem_singleton.mp (resolve_eq_some he).1
  obtain ⟨-, h⟩ := of_guard h
  obtain ⟨-, h⟩ := of_guard h
  exact ⟨values, hvalues, (Except.ok.inj h).symm⟩

theorem handle_case_end {host : Host} {name : String} {st st' : ParseState} {below : List StackEntry}
    (hstack : st.stack = ⟨.codec_case, []⟩ :: below) (h : handle host st (.stop name) = .ok st') :
    st' = { st with stack := below } := by
  obtain ⟨top, rest, st₁, htop, hstop, rfl⟩ := parseSectionEnd_inv h
  obtain ⟨rfl, rfl⟩ := List.cons.inj (hstack.symm.trans htop)
  obtain rfl := Except.ok.inj hstop
  rw [hstack, List.tail_cons]

/-- Nothing can be started in a codec case. -/
theorem runs_without_children {content : Forest} {name : String} {tail : List XmlEvent} {st st' : ParseState}
    {below : List StackEntry} (hstack : st.stack = ⟨.codec_case, []⟩ :: below)
    (h : Runs st (content.events ++ .stop name :: tail) st') : content = .nil := by
  cases content with
  | nil => rfl
  | elem name attribs inner next =>
    cases h with
    | cons h hr =>
      obtain ⟨top, rest, e, values, htop, he, -⟩ := parseSectionStart_inv h
      obtain ⟨rfl, -⟩ := List.cons.inj (hstack.symm.trans htop)
      exact absurd (resolve_eq_some he).1 List.not_mem_nil

/-- The block adds its cases, in order, and nothing else. -/
theorem runs_block {block : Forest} {st st' : ParseState} {below : List StackEntry}
    (h : Runs st block.events st') (hstack : st.stack = ⟨.codec_probe, [.codec_case]⟩ :: below) :
    st'.codec_cases = st.codec_cases ++ block.codecCases ∧ st'.stack = st.stack ∧
      st'.cur_xml_file = st.cur_xml_file := by
  induction block generalizing st with
  | nil =>
    cases h
    exact ⟨(List.append_nil _).symm, rfl, rfl⟩
  | elem name attribs content rest ihc ihr =>
    cases h with
    | cons h hr =>
      obtain ⟨values, hvalues, rfl⟩ := handle_case hstack h
      obtain rfl := runs_without_children rfl hr
      cases hr with
      | cons h hr =>
        obtain rfl := handle_case_end rfl h
        obtain ⟨hcases, hsame, hxml⟩ := ihr hr hstack
        refine ⟨hcases.trans ?_, hsame, hxml⟩
        rw [Forest.codecCases, hvalues, List.append_assoc]
        rfl

/-- A second probe of a file is refused. -/
theorem parseCodecProbeStart_first {host : Host} {values : Attribs} {st st' : ParseState}
    (h : parseCodecProbeStart host values st = .ok st') : st.probe_file = none := by
  unfold parseCodecProbeStart at h
  split at h
  case isTrue hnone => exact hnone
  case isFalse => cases h

/-- The state at the end of a probe. -/
theorem ProbeRead.cases {files : Files} {hosts : Nat → Host} {t : Turn} {before : List XmlEvent}
    {attribs : XmlAttribs} {block : Forest} {st : ParseState} (hb : BeforeProbe t t.state)
    (h : ProbeRead files hosts t before attribs block st) :
    st.codec_cases = t.state.codec_cases ++ block.codecCases ∧ st.cur_xml_file = t.state.cur_xml_file ∧
      ∃ below, st.stack = ⟨.codec_probe, [.codec_case]⟩ :: below := by
  obtain ⟨st₁, hbefore, hr⟩ := (runs_of_parseEvents h.parsed).split
  have hb₁ := runs_beforeProbe hb hbefore
  cases hr with
  | @cons _ st₂ _ _ _ host hstart hr =>
    obtain ⟨top, below, e, values, htop, he, hvalues, hstart⟩ := parseSectionStart_inv hstart
    have hname := (resolve_eq_some he).2
    have he : e = .codec_probe := by
      revert hname
      cases e <;> decide
    subst he
    have hnone := @parseCodecProbeStart_first host values _ st₂ hstart
    have hst := @parseCodecProbeStart_inv host values _ st₂ hstart
    obtain ⟨hcases, hstack, hxml⟩ := runs_block hr (by rw [hst]; rfl)
    rw [hcases, hstack, hxml, hst]
    exact ⟨congrArg (· ++ _) (hb₁.cases_kept hnone), hb₁.file, st₁.stack, rfl⟩

/-! ## The turns of the loop -/

theorem doParse_next {hosts : Nat → Host} {well_formed : Bool} {st : ParseState} {events : List XmlEvent} {t : Turn}
    (h : doParse hosts well_formed st events = .redirected t) : ∃ file st', t = nextTurn file st' := by
  induction events generalizing hosts st with
  | nil =>
    rw [doParse] at h
    split at h <;> cases h
  | cons event rest ih =>
    rw [doParse] at h
    split at h
    · exact ih h
    · exact ⟨_, _, (TurnResult.redirected.inj h).symm⟩
    · cases h

theorem redirects_next {files : Files} {hosts : Nat → Host} {t t' : Turn} (h : Redirects files t hosts t') :
    ∃ file st, t' = nextTurn file st := by
  unfold Redirects parseTurn at h
  split at h
  · cases h
  · exact doParse_next h

/-- A turn starts without a probe. -/
theorem turns_beforeProbe {files : Files} {property : String} {t : Turn} (ht : Turns files property t) :
    BeforeProbe t t.state := by
  have hroot : ∀ entry ∈ [StackEntry.mk .ctl [.audiohal]], Elem.codec_case ∉ entry.valid_subelem := by
    intro entry hentry
    rw [List.mem_singleton.mp hentry]
    decide
  have hstack : t.state.stack = [⟨.ctl, [.audiohal]⟩] := by
    refine ht.invariant (P := fun t => t.state.stack = [⟨.ctl, [.audiohal]⟩]) ?_ ?_
    · rintro t rfl
      rfl
    · intro t hosts t' _ _ h
      obtain ⟨file, st, rfl⟩ := redirects_next h
      rfl
  exact ⟨rfl, fun _ => rfl, fun _ => hstack ▸ hroot⟩

section

variable {files : Files} {hosts : Nat → Host} {t : Turn} {before : List XmlEvent} {attribs : XmlAttribs}
  {block : Forest} {st : ParseState}

theorem doParse_append {well_formed : Bool} {first second : List XmlEvent} {st st' : ParseState}
    (h : parseEvents hosts st first = .ok st') :
    doParse hosts well_formed st (first ++ second) =
      doParse (fun n => hosts (n + first.length)) well_formed st' second := by
  induction first generalizing hosts st with
  | nil =>
    obtain rfl := Except.ok.inj h
    rfl
  | cons event rest ih =>
    rw [parseEvents] at h
    rw [List.cons_append, doParse]
    split at h
    case h_1 => cases h
    case h_2 st₁ h₁ =>
      rw [h₁]
      dsimp only
      rw [ih h]
      simp only [List.length_cons, Nat.add_assoc]

/-- The host at the end of the block. -/
def endHost (hosts : Nat → Host) (before : List XmlEvent) (block : Forest) : Host :=
  hosts (before.length + (block.events.length + 1))

/-- What comes after the probe is how the turn goes on. -/
theorem ProbeRead.turn (h : ProbeRead files hosts t before attribs block st) :
    match afterProbe (endHost hosts before block) st with
    | .continues => True
    | .loads path => ∃ t', parseTurn files hosts t = .redirected t' ∧ t'.path = path
    | .rejected => ∃ stop, parseTurn files hosts t = .failed stop := by
  obtain ⟨file, rest, hfile, hevents⟩ := h.file
  have hturn : parseTurn files hosts t = doParse (fun n => hosts (n + (before.length + (block.events.length + 1))))
      file.well_formed st (.stop "codec_probe" :: rest) := by
    unfold parseTurn
    rw [hfile]
    dsimp only
    rw [hevents, ← List.cons_append, ← List.append_assoc, doParse_append h.parsed, List.length_append,
      List.length_cons]
  rw [hturn, doParse, Nat.zero_add]
  unfold afterProbe endHost
  cases handle (hosts (before.length + (block.events.length + 1))) st (.stop "codec_probe") with
  | ok st => trivial
  | error stop =>
    cases stop with
    | redirect file => exact ⟨_, rfl, rfl⟩
    | error code => exact ⟨_, rfl⟩
    | crash => exact ⟨_, rfl⟩

/-- The first of two lists answers first. -/
theorem caseFor_append (first second : List CodecCase) (line : Option String) :
    caseFor (first ++ second) line = (caseFor first line).or (caseFor second line) := by
  cases line with
  | none => rfl
  | some line => exact List.find?_append

/-- The code's outcome: the first case so far for what is in the buffer. -/
theorem ProbeRead.outcome (hb : BeforeProbe t t.state) (h : ProbeRead files hosts t before attribs block st)
    (host : Host) :
    afterProbe host st =
      match (caseFor t.state.codec_cases host.codec_line).or (caseFor block.codecCases host.codec_line) with
      | none => .continues
      | some c =>
        if c.file = t.state.cur_xml_file then .rejected else .loads (snprintf 80 ("/vendor/etc/" ++ c.file)) := by
  obtain ⟨hcases, hxml, below, hstack⟩ := h.cases hb
  have hhandle : handle host st (.stop "codec_probe") =
      (parseCodecProbeEnd host st).map fun st => { st with stack := st.stack.tail } := by
    rw [handle, parseSectionEnd, hstack]
    show (parseCodecProbeEnd host st >>= _) = _
    cases parseCodecProbeEnd host st <;> rfl
  rw [← caseFor_append, ← hcases, ← hxml]
  unfold afterProbe
  rw [hhandle]
  unfold parseCodecProbeEnd probeConfigFile caseFor
  cases host.codec_line with
  | none => rfl
  | some line =>
    dsimp only [Option.bind_some]
    cases st.codec_cases.find? fun c => c.codec_name = probeTrimSpaces line with
    | none => rfl
    | some c =>
      dsimp only
      by_cases hfile : c.file = st.cur_xml_file
      · rw [if_pos hfile, if_pos hfile]
        rfl
      · rw [if_neg hfile, if_neg hfile]
        rfl

end

/-- The case that answers does what the case that should says. -/
theorem sameTarget_iff (file : String) (found own : Option CodecCase) :
    (match found with
      | none => Outcome.continues
      | some c => if c.file = file then .rejected else .loads (snprintf 80 ("/vendor/etc/" ++ c.file))) =
      (match own with
      | none => .continues
      | some c => if c.file = file then .rejected else .loads ("/vendor/etc/" ++ c.file)) ↔
      SameTarget file found own := by
  cases found with
  | none =>
    cases own with
    | none => exact ⟨fun _ => trivial, fun _ => rfl⟩
    | some c =>
      unfold SameTarget
      dsimp only
      split <;> simp
  | some found =>
    cases own with
    | none =>
      unfold SameTarget
      dsimp only
      split <;> simp
    | some own =>
      unfold SameTarget
      by_cases hfound : found.file = file <;> by_cases hown : own.file = file <;> simp [hfound, hown]

/-- **Outcome of a probe.** -/
theorem codec_probe_per_file_iff (files : Files) (property : String) (t : Turn) (ht : Turns files property t)
    (hosts : Nat → Host) (before : List XmlEvent) (attribs : XmlAttribs) (block : Forest) (st : ParseState)
    (hread : ProbeRead files hosts t before attribs block st) (content : String)
    (hline : (endHost hosts before block).codec_line = fgets PROBE_BUF_SIZE content) :
    afterProbe (endHost hosts before block) st = ownOutcome t.state.cur_xml_file block.codecCases content ↔
      OwnDecides t.state.cur_xml_file t.state.codec_cases block.codecCases content := by
  rw [hread.outcome (turns_beforeProbe ht), hline]
  unfold ownOutcome OwnDecides
  refine (sameTarget_iff _ _ _).trans ?_
  cases caseFor t.state.codec_cases (fgets PROBE_BUF_SIZE content) with
  | none => exact Iff.rfl
  | some found => exact Iff.rfl

/-- A device whose card id is read by the probe. -/
def probeHost : Host := ⟨true, fun _ => some fun _ => none, fgets PROBE_BUF_SIZE "wm5102\n"⟩

/-- The one case of a file, for the codec of the device. -/
def probeBlock (file : String) : Forest := .elem "case" [("name", "wm5102"), ("file", file)] .nil .nil

def probeFile (file : String) : XmlFile where
  events := (Forest.elem "audiohal" [] (.elem "codec_probe" [("file", "id")] (probeBlock file) .nil) .nil).events
  well_formed := true

/-- Two files, each of which leads on. -/
def probeFiles : Files := fun path =>
  if path = "/vendor/etc/audio.mocha.xml" then some (probeFile "audio.wm5102.xml")
  else if path = "/vendor/etc/audio.wm5102.xml" then some (probeFile "audio.florida.xml")
  else none

/-- The state at the end of the probe of such a file. -/
def atProbeEnd (t : Turn) (file : String) : Except Stop ParseState :=
  parseEvents (fun _ => probeHost) t.state
    ([.start "audiohal" []] ++ .start "codec_probe" [("file", "id")] :: (probeBlock file).events)

theorem probeRead_of_isOk {t : Turn} {file : String} (hfile : probeFiles t.path = some (probeFile file))
    (h : (atProbeEnd t file).isOk = true) :
    ∃ st, ProbeRead probeFiles (fun _ => probeHost) t [.start "audiohal" []] [("file", "id")] (probeBlock file) st := by
  cases hst : atProbeEnd t file with
  | error stop =>
    rw [hst] at h
    cases h
  | ok st => exact ⟨st, ⟨probeFile file, [.stop "audiohal"], hfile, rfl⟩, hst⟩

/-- The turn after the first one. -/
def secondTurn : Turn :=
  match parseTurn probeFiles (fun _ => probeHost) (firstTurn "mocha") with
  | .redirected t => t
  | _ => firstTurn "mocha"

theorem secondTurn_reached : Turns probeFiles "mocha" secondTurn := by
  have hfirst : Turns probeFiles "mocha" (firstTurn "mocha") := .start rfl
  unfold secondTurn
  cases h : parseTurn probeFiles (fun _ => probeHost) (firstTurn "mocha") with
  | redirected t => exact hfirst.next trivial h
  | finished st => exact hfirst
  | failed stop => exact hfirst

theorem codec_probe_per_file_of_first :
    ∃ st, ProbeRead probeFiles (fun _ => probeHost) (firstTurn "mocha") [.start "audiohal" []] [("file", "id")]
        (probeBlock "audio.wm5102.xml") st ∧
      afterProbe probeHost st = .loads "/vendor/etc/audio.wm5102.xml" := by
  obtain ⟨st, hread⟩ := @probeRead_of_isOk (firstTurn "mocha") "audio.wm5102.xml" (by decide) (by decide)
  have hown : OwnDecides "audio.mocha.xml" [] (probeBlock "audio.wm5102.xml").codecCases "wm5102\n" := by
    unfold OwnDecides
    show SameTarget _ _ _
    decide
  exact ⟨st, hread, ((codec_probe_per_file_iff probeFiles "mocha" _ (.start rfl) (fun _ => probeHost) _ _ _ st hread
    "wm5102\n" rfl).mpr hown).trans (by decide)⟩

/-- The case of the first file sends the second one to itself. -/
theorem earlier_case_answers :
    ¬ ∀ (files : Files) (property : String) (t : Turn) (_ : Turns files property t) (hosts : Nat → Host)
      (before : List XmlEvent) (attribs : XmlAttribs) (block : Forest) (st : ParseState)
      (_ : ProbeRead files hosts t before attribs block st) (content : String)
      (_ : (endHost hosts before block).codec_line = fgets PROBE_BUF_SIZE content),
      afterProbe (endHost hosts before block) st = ownOutcome t.state.cur_xml_file block.codecCases content := by
  intro h
  obtain ⟨st, hread⟩ := @probeRead_of_isOk secondTurn "audio.florida.xml" (by decide) (by decide)
  have hclaimed := h _ _ _ secondTurn_reached _ _ _ _ st hread "wm5102\n" rfl
  have hdone := hread.outcome (turns_beforeProbe secondTurn_reached) probeHost
  revert hclaimed
  rw [show endHost (fun _ => probeHost) [XmlEvent.start "audiohal" []] (probeBlock "audio.florida.xml") = probeHost from
    rfl, hdone]
  decide

end MochaHal.Audio.Parser
