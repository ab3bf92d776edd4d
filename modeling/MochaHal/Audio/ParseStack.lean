import MochaHal.Audio.ConfigParser

/-! The stack of open elements as the parser has it: an array of `MAX_PARSE_DEPTH` entries
with an index, which an error freezes.  The guard of `parse_section_start` lets the index
reach one past the array, so it is the depth of the grammar that keeps the accesses inside
(`stack_within_grammar`).  The list that stands for the stack in the rest of the parser's
model is what the array holds (`handleAt_view`). -/

namespace MochaHal.Audio.Parser

/-! ## The source -/

/-- `state->stack`, with the error that stops the handlers.  `data` is the rest of the
state and `touched` lists the indices of `stack.entry` that were accessed. -/
structure StackState where
  index : Int
  entry : Int → StackEntry
  error : Option Stop
  data : ParseState
  touched : List Int

def StackState.touch (p : StackState) (i : Int) : StackState := { p with touched := p.touched ++ [i] }

def StackState.push (p : StackState) (top : StackEntry) : StackState :=
  { p with
    index := p.index + 1
    entry := Function.update p.entry (p.index + 1) top
    touched := p.touched ++ [p.index + 1] }

/-- What `parse_mixer_start` does to the element around the mixer. -/
def StackState.allow (p : StackState) (valid : List Elem) : StackState :=
  { p with
    entry := Function.update p.entry (p.index - 1) ⟨(p.entry (p.index - 1)).elem, valid⟩
    touched := p.touched ++ [p.index - 1] }

/-- `parse_set_error`. -/
def StackState.setError (p : StackState) (stop : Stop) : StackState := { p with error := some stop }

/-- The start handler of an element that is on the stack. -/
def startAt (host : Host) (e : Elem) (values : Attribs) (p : StackState) : StackState :=
  match e.start host values p.data with
  | .error stop => p.setError stop
  | .ok data => if e = .mixer then { p with data := data }.allow [.device, .stream] else { p with data := data }

def parseSectionStartAt (host : Host) (name : String) (attribs : XmlAttribs) (p : StackState) : StackState :=
  let p := p.touch p.index
  if p.error.isSome then p
  else
    match resolve (p.entry p.index).valid_subelem name with
    | none => p.setError (.error (-EINVAL))
    | some e =>
      if p.index ≥ MAX_PARSE_DEPTH then p.setError (.error (-EINVAL))
      else
        let p := p.push ⟨e, e.valid_subelem⟩
        match extractAttribs e attribs with
        | none => p.setError (.error (-EINVAL))
        | some values => startAt host e values p

def parseSectionEndAt (host : Host) (p : StackState) : StackState :=
  let p := p.touch p.index
  if p.error.isSome then p
  else
    match (p.entry p.index).elem.stop host p.data with
    | .error stop => { p with index := p.index - 1, error := some stop }
    | .ok data => { p with index := p.index - 1, data := data }

def handleAt (host : Host) (p : StackState) : XmlEvent → StackState
  | .start name attribs => parseSectionStartAt host name attribs p
  | .stop _ => parseSectionEndAt host p

def parseEventsAt (hosts : Nat → Host) (p : StackState) : List XmlEvent → StackState
  | [] => p
  | event :: rest => parseEventsAt (fun n => hosts (n + 1)) (handleAt (hosts 0) p event) rest

/-- `do_parse` before the first element: only the first entry is set. -/
def startState (file : String) (cases : List CodecCase) (entry : Int → StackEntry) : StackState where
  index := 0
  entry := Function.update entry 0 ⟨(entry 0).elem, [.audiohal]⟩
  error := none
  data := initState file cases
  touched := [0]

/-! ## The grammar -/

/-- An open element: its name and the names of the elements that were started in it. -/
structure OpenElem where
  name : String
  children : List String
  deriving DecidableEq, Repr

def openAfter : List OpenElem → XmlEvent → List OpenElem
  | top :: rest, .start name _ => ⟨name, []⟩ :: ⟨top.name, top.children ++ [name]⟩ :: rest
  | _ :: rest, .stop _ => rest
  | [], _ => []

/-- The chain of open elements, the innermost first and the document itself last. -/
def openElements (events : List XmlEvent) : List OpenElem := events.foldl openAfter [⟨"", []⟩]

/-- What may stand in an element, or in the document, behind the children it has. -/
def permitted : Option Elem → List String → List Elem
  | none, _ => [.audiohal]
  | some e, before => if e = .audiohal ∧ "mixer" ∈ before then [.device, .stream] else e.valid_subelem

/-- Every child was permitted where it stands, and no second mixer is among them. -/
structure ChildrenOk (e : Option Elem) (children : List String) : Prop where
  each : ∀ before name after, children = before ++ name :: after → ∃ c ∈ permitted e before, c.name = name
  mixers : children.count "mixer" ≤ 1

/-- The element of an entry; the first one stands for the document. -/
def elemAt (entry : Int → StackEntry) (k : Nat) : Option Elem := if k = 0 then none else some (entry k).elem

/-- The entries are the chain: each is a permitted child of the one below. -/
def ChainOf (entry : Int → StackEntry) : List OpenElem → Prop
  | [] => False
  | [root] => (entry 0).valid_subelem = permitted none root.children ∧ ChildrenOk none root.children
  | top :: parent :: rest =>
    (entry (rest.length + 1)).elem.name = top.name ∧
      (entry (rest.length + 1)).valid_subelem = permitted (some (entry (rest.length + 1)).elem) top.children ∧
      ChildrenOk (some (entry (rest.length + 1)).elem) top.children ∧
      (∃ before, parent.children = before ++ [top.name] ∧
        (entry (rest.length + 1)).elem ∈ permitted (elemAt entry rest.length) before) ∧
      ChainOf entry (parent :: rest)

/-- The number of mixers, and of elements that were started in the document. -/
def mixerStarts (events : List XmlEvent) : Nat :=
  events.countP fun
    | .start name _ => name = "mixer"
    | .stop _ => false

def rootStarts (chain : List OpenElem) : Nat := (chain.getLast?.map fun root => root.children.length).getD 0

/-! ## Elements and their children -/

/-- How deep the elements in an element can be nested; the document is deeper than all. -/
def Elem.height : Elem → Nat
  | .ctl | .enable | .disable | .stream_ctl | .codec_case => 0
  | .path | .scase | .init | .codec_probe => 1
  | .usecase | .device | .mixer => 2
  | .stream => 3
  | .audiohal => 4

def heightOf : Option Elem → Nat
  | none => 5
  | some e => e.height

theorem height_valid_subelem (e : Elem) : ∀ c ∈ e.valid_subelem, c.height < e.height := by
  cases e <;> decide

theorem height_permitted {e : Option Elem} {before : List String} {c : Elem} (h : c ∈ permitted e before) :
    c.height < heightOf e := by
  cases e with
  | none =>
    obtain rfl := List.mem_singleton.mp h
    decide
  | some e =>
    rw [permitted] at h
    split at h
    case isTrue hmixer =>
      rw [hmixer.1]
      simp only [List.mem_cons, List.not_mem_nil, or_false] at h
      rcases h with rfl | rfl <;> decide
    case isFalse => exact height_valid_subelem e c h

theorem name_eq_mixer {e : Elem} : e.name = "mixer" ↔ e = .mixer := by
  cases e <;> decide

/-- Only in `<audiohal>` is there a mixer, and only one. -/
theorem permitted_mixer {e : Option Elem} {before : List String} (h : Elem.mixer ∈ permitted e before) :
    e = some .audiohal ∧ "mixer" ∉ before := by
  cases e with
  | none => exact absurd (List.mem_singleton.mp h) (by decide)
  | some e =>
    rw [permitted] at h
    split at h
    case isTrue => exact absurd h (by decide)
    case isFalse hnot =>
      have haudio : e = .audiohal := by
        revert h
        cases e <;> decide
      exact ⟨congrArg some haudio, fun hmixer => hnot ⟨haudio, hmixer⟩⟩

theorem not_permitted_audiohal {e : Elem} {before : List String} : Elem.audiohal ∉ permitted (some e) before := by
  rw [permitted]
  split
  · decide
  · cases e <;> decide

theorem permitted_append {e : Option Elem} {before : List String} {name : String} (h : name ≠ "mixer") :
    permitted e (before ++ [name]) = permitted e before := by
  cases e with
  | none => rfl
  | some e => simp [permitted, h.symm]

theorem ChildrenOk.nil (e : Option Elem) : ChildrenOk e [] :=
  ⟨fun before name after h => (by simp at h), Nat.zero_le 1⟩

theorem ChildrenOk.append {e : Option Elem} {children : List String} (h : ChildrenOk e children) {c : Elem}
    (hc : c ∈ permitted e children) : ChildrenOk e (children ++ [c.name]) := by
  constructor
  · intro before name after heq
    rcases List.eq_nil_or_concat after with rfl | ⟨after, last, rfl⟩
    · obtain ⟨rfl, hname⟩ := List.append_inj' heq rfl
      exact ⟨c, hc, (List.cons.inj hname).1⟩
    · rw [List.concat_eq_append, ← List.cons_append, ← List.append_assoc] at heq
      obtain ⟨rfl, -⟩ := List.append_inj' heq rfl
      exact h.each before name after rfl
  · rw [List.count_append]
    by_cases hmixer : c = .mixer
    · subst hmixer
      rw [List.count_eq_zero.mpr (permitted_mixer hc).2]
      decide
    · have hname : c.name ≠ "mixer" := fun h => hmixer (name_eq_mixer.mp h)
      rw [List.count_singleton, if_neg (by simpa using hname)]
      exact h.mixers

/-! ## The chain -/

section

variable {entry entry' : Int → StackEntry} {top : OpenElem} {rest : List OpenElem}

theorem ChainOf.congr (h : ChainOf entry rest) (hsame : ∀ k : Nat, k < rest.length → entry' k = entry k) :
    ChainOf entry' rest := by
  induction rest with
  | nil => exact h
  | cons top rest ih =>
    cases rest with
    | nil =>
      have h0 := hsame 0 (Nat.zero_lt_one)
      unfold ChainOf at h ⊢
      rw [Nat.cast_zero] at h0
      rwa [h0]
    | cons parent rest =>
      have htop := hsame (rest.length + 1) (by rw [List.length_cons, List.length_cons]; omega)
      have hparent : elemAt entry' rest.length = elemAt entry rest.length := by
        have := hsame rest.length (by rw [List.length_cons, List.length_cons]; omega)
        unfold elemAt
        rw [this]
      rw [Nat.cast_add, Nat.cast_one] at htop
      unfold ChainOf at h ⊢
      rw [htop, hparent]
      obtain ⟨hname, hvalid, hok, hlink, hbelow⟩ := h
      exact ⟨hname, hvalid, hok, hlink, ih hbelow fun k hk => hsame k (Nat.lt_succ_of_lt hk)⟩

theorem ChainOf.valid (h : ChainOf entry (top :: rest)) :
    (entry rest.length).valid_subelem = permitted (elemAt entry rest.length) top.children := by
  cases rest with
  | nil => exact h.1
  | cons parent rest => exact h.2.1

theorem ChainOf.children (h : ChainOf entry (top :: rest)) :
    ChildrenOk (elemAt entry rest.length) top.children := by
  cases rest with
  | nil => exact h.2
  | cons parent rest => exact h.2.2.1

/-- The deeper an element is, the lower. -/
theorem ChainOf.height (h : ChainOf entry (top :: rest)) :
    rest.length + heightOf (elemAt entry rest.length) ≤ 5 := by
  induction rest generalizing top with
  | nil => exact Nat.le_refl 5
  | cons parent rest ih =>
    obtain ⟨-, -, -, ⟨before, -, hmem⟩, hbelow⟩ := h
    have hlt := height_permitted hmem
    have hle := ih hbelow
    show rest.length + 1 + (entry (rest.length + 1)).elem.height ≤ 5
    omega

/-- Only the outermost element is `<audiohal>`. -/
theorem ChainOf.audiohal {parent : OpenElem} (h : ChainOf entry (top :: parent :: rest))
    (haudio : elemAt entry (rest.length + 1) = some .audiohal) : rest = [] := by
  obtain ⟨-, -, -, ⟨before, -, hmem⟩, -⟩ := h
  have helem : (entry (rest.length + 1)).elem = .audiohal := Option.some.inj haudio
  rw [helem] at hmem
  cases rest with
  | nil => rfl
  | cons root rest => exact absurd hmem not_permitted_audiohal

/-- A child is named at the end of the innermost element. -/
theorem ChainOf.grow (h : ChainOf entry (top :: rest)) {c : Elem}
    (hc : c ∈ permitted (elemAt entry rest.length) top.children)
    (hbelow : ∀ k : Nat, k < rest.length → entry' k = entry k)
    (helem : (entry' rest.length).elem = (entry rest.length).elem)
    (hvalid : (entry' rest.length).valid_subelem =
      permitted (elemAt entry rest.length) (top.children ++ [c.name])) :
    ChainOf entry' (⟨top.name, top.children ++ [c.name]⟩ :: rest) := by
  have hok := h.children.append hc
  cases rest with
  | nil => exact ⟨hvalid, hok⟩
  | cons parent rest =>
    have hparent : elemAt entry' rest.length = elemAt entry rest.length := by
      unfold elemAt
      rw [hbelow rest.length (Nat.lt_succ_self _)]
    obtain ⟨hname, -, -, hlink, hchain⟩ := h
    have helem' : (entry' (rest.length + 1)).elem = (entry (rest.length + 1)).elem := helem
    unfold ChainOf
    rw [helem', hparent]
    exact ⟨hname, hvalid, hok, hlink, hchain.congr hbelow⟩

/-- An element is started in the innermost one. -/
theorem ChainOf.start (h : ChainOf entry (top :: rest)) {c : Elem}
    (hc : c ∈ permitted (elemAt entry rest.length) top.children)
    (hbelow : ∀ k : Nat, k < rest.length → entry' k = entry k)
    (helem : (entry' rest.length).elem = (entry rest.length).elem)
    (hvalid : (entry' rest.length).valid_subelem =
      permitted (elemAt entry rest.length) (top.children ++ [c.name]))
    (htop : entry' (rest.length + 1) = ⟨c, c.valid_subelem⟩) :
    ChainOf entry' (⟨c.name, []⟩ :: ⟨top.name, top.children ++ [c.name]⟩ :: rest) := by
  have hkind : elemAt entry' rest.length = elemAt entry rest.length := by
    unfold elemAt
    rw [helem]
  unfold ChainOf
  rw [htop, hkind]
  exact ⟨rfl, by simp [permitted], .nil _, ⟨top.children, rfl, hc⟩, h.grow hc hbelow helem hvalid⟩

end

/-- The mixers so far: each `<audiohal>` has at most one, and the open one that has none
yet is still to get it. -/
def MixerRoom : List OpenElem → Nat → Prop
  | [], _ => True
  | [root], mixers => mixers ≤ root.children.length
  | [audiohal, root], mixers =>
    mixers + (if "mixer" ∈ audiohal.children then 0 else 1) ≤ root.children.length
  | _ :: parent :: grandparent :: rest, mixers => MixerRoom (parent :: grandparent :: rest) mixers

section

variable {entry : Int → StackEntry} {top : OpenElem} {rest : List OpenElem} {mixers : Nat}

theorem MixerRoom.roots {chain : List OpenElem} (h : MixerRoom chain mixers) (hne : chain ≠ []) :
    mixers ≤ rootStarts chain := by
  induction chain with
  | nil => exact absurd rfl hne
  | cons top rest ih =>
    match rest, h, ih with
    | [], h, _ => exact h
    | [root], h, _ =>
      unfold MixerRoom at h
      exact Nat.le_trans (Nat.le_add_right _ _) h
    | parent :: grandparent :: rest, h, ih => exact ih h (List.cons_ne_nil _ _)

theorem MixerRoom.stop {parent : OpenElem} (h : MixerRoom (top :: parent :: rest) mixers) :
    MixerRoom (parent :: rest) mixers := by
  cases rest with
  | nil =>
    unfold MixerRoom at h
    exact Nat.le_trans (Nat.le_add_right _ _) h
  | cons grandparent rest => exact h

theorem MixerRoom.start (h : MixerRoom (top :: rest) mixers) (hchain : ChainOf entry (top :: rest)) {c : Elem}
    (hc : c ∈ permitted (elemAt entry rest.length) top.children) :
    MixerRoom (⟨c.name, []⟩ :: ⟨top.name, top.children ++ [c.name]⟩ :: rest)
      (mixers + if c.name = "mixer" then 1 else 0) := by
  by_cases hmixer : c = .mixer
  · subst hmixer
    -- the mixer takes the room of the one open `<audiohal>`
    obtain ⟨haudio, hnone⟩ := permitted_mixer hc
    match rest, hchain, haudio, h with
    | [], _, haudio, _ => cases haudio
    | [root], _, _, h =>
      unfold MixerRoom at h
      rw [if_neg hnone] at h
      simpa [MixerRoom, Elem.name] using h
    | parent :: grandparent :: rest, hchain, haudio, _ =>
      exact absurd (hchain.audiohal haudio) (List.cons_ne_nil _ _)
  · have hname : ¬ c.name = "mixer" := fun h => hmixer (name_eq_mixer.mp h)
    rw [if_neg hname, Nat.add_zero]
    match rest, h with
    | [], h => simpa [MixerRoom] using Nat.succ_le_succ h
    | [root], h => simpa [MixerRoom, Ne.symm hname] using h
    | parent :: grandparent :: rest, h => exact h

end

/-! ## One event -/

/-- Every access is inside the array, and while there is no error the entries are the
chain of open elements. -/
structure StackInv (p : StackState) (chain : List OpenElem) (mixers : Nat) : Prop where
  index : 0 ≤ p.index ∧ p.index < MAX_PARSE_DEPTH
  touched : ∀ i ∈ p.touched, 0 ≤ i ∧ i < MAX_PARSE_DEPTH
  chain : p.error = none → p.index + 1 = chain.length ∧ ChainOf p.entry chain ∧ MixerRoom chain mixers

section

variable {host : Host} {p : StackState} {chain : List OpenElem} {mixers : Nat} {name : String}
  {attribs : XmlAttribs}

theorem touched_append {l l' : List Int} (h : ∀ i ∈ l, 0 ≤ i ∧ i < (MAX_PARSE_DEPTH : Int))
    (h' : ∀ i ∈ l', 0 ≤ i ∧ i < (MAX_PARSE_DEPTH : Int)) : ∀ i ∈ l ++ l', 0 ≤ i ∧ i < (MAX_PARSE_DEPTH : Int) := by
  intro i hi
  rcases List.mem_append.mp hi with hi | hi
  · exact h i hi
  · exact h' i hi

theorem StackInv.touch (h : StackInv p chain mixers) : StackInv (p.touch p.index) chain mixers := by
  refine ⟨h.index, touched_append h.touched fun i hi => ?_, h.chain⟩
  rw [List.mem_singleton.mp hi]
  exact h.index

/-- An error freezes the stack. -/
theorem StackInv.frozen (h : StackInv p chain mixers) (herror : p.error.isSome = true) (chain' : List OpenElem)
    (mixers' : Nat) : StackInv p chain' mixers' := by
  refine ⟨h.index, h.touched, fun hnone => ?_⟩
  rw [hnone] at herror
  cases herror

theorem StackInv.setError (h : StackInv p chain mixers) (stop : Stop) (chain' : List OpenElem) (mixers' : Nat) :
    StackInv (p.setError stop) chain' mixers' :=
  ⟨h.index, h.touched, fun hnone => (by cases hnone)⟩

/-- An element that is permitted finds a place for its entry. -/
theorem StackInv.push {top : OpenElem} {rest : List OpenElem} (h : StackInv p (top :: rest) mixers)
    (hnone : p.error = none) {c : Elem} (hc : c ∈ permitted (elemAt p.entry rest.length) top.children) :
    p.index = rest.length ∧ (0 ≤ p.index + 1 ∧ p.index + 1 < MAX_PARSE_DEPTH) ∧
      ∀ i ∈ (p.push ⟨c, c.valid_subelem⟩).touched, 0 ≤ i ∧ i < (MAX_PARSE_DEPTH : Int) := by
  obtain ⟨hindex, hchain, -⟩ := h.chain hnone
  have hn : p.index = rest.length := by
    rw [List.length_cons, Nat.cast_add, Nat.cast_one] at hindex
    omega
  have hheight := hchain.height
  have hlower := height_permitted hc
  have hmax : (MAX_PARSE_DEPTH : Int) = 6 := rfl
  have hindex' : 0 ≤ p.index + 1 ∧ p.index + 1 < (MAX_PARSE_DEPTH : Int) := by omega
  refine ⟨hn, hindex', touched_append h.touched fun i hi => ?_⟩
  rw [List.mem_singleton.mp hi]
  exact hindex'

/-- The entries behind a start handler. -/
theorem startAt_inv {c : Elem} {values : Attribs} {top : OpenElem} {rest : List OpenElem}
    (h : StackInv p (top :: rest) mixers) (hnone : p.error = none)
    (hc : c ∈ permitted (elemAt p.entry rest.length) top.children) :
    StackInv (startAt host c values (p.push ⟨c, c.valid_subelem⟩))
      (⟨c.name, []⟩ :: ⟨top.name, top.children ++ [c.name]⟩ :: rest)
      (mixers + if c.name = "mixer" then 1 else 0) := by
  obtain ⟨-, hchain, hroom⟩ := h.chain hnone
  obtain ⟨hn, hindex', htouched⟩ := h.push hnone hc
  have hbelow : ∀ k : Nat, k < rest.length + 1 →
      (p.push ⟨c, c.valid_subelem⟩).entry k = p.entry k := by
    intro k hk
    exact Function.update_of_ne (by omega) _ _
  have htop : (p.push ⟨c, c.valid_subelem⟩).entry (rest.length + 1) = ⟨c, c.valid_subelem⟩ := by
    rw [← hn]
    exact Function.update_self _ _ _
  have hlength : p.index + 1 + 1 =
      ((⟨c.name, []⟩ :: ⟨top.name, top.children ++ [c.name]⟩ :: rest : List OpenElem).length : Int) := by
    simp only [List.length_cons, Nat.cast_add, Nat.cast_one, hn]
  unfold startAt
  split
  · exact ⟨hindex', htouched, fun hnone => (by cases hnone)⟩
  · split
    case isTrue hmixer =>
      subst hmixer
      -- the mixer also rewrites the entry below its own
      have hkind := (permitted_mixer hc).1
      have hsub : (p.push ⟨Elem.mixer, Elem.mixer.valid_subelem⟩).index - 1 = (rest.length : Int) := by
        rw [← hn]
        exact Int.add_sub_cancel _ _
      refine ⟨hindex', touched_append htouched fun i hi => ?_, fun _ => ⟨hlength, ?_, hroom.start hchain hc⟩⟩
      · rw [List.mem_singleton.mp hi, hsub]
        omega
      · refine hchain.start hc (fun k hk => ?_) ?_ ?_ ?_
        · unfold StackState.allow
          dsimp only
          rw [hsub, Function.update_of_ne (by omega)]
          exact hbelow k (by omega)
        · unfold StackState.allow
          dsimp only
          rw [hsub, Function.update_self]
          dsimp only
          exact congrArg StackEntry.elem (hbelow rest.length (Nat.lt_succ_self _))
        · unfold StackState.allow
          dsimp only
          rw [hsub, Function.update_self, hkind]
          simp [permitted, Elem.name]
        · unfold StackState.allow
          dsimp only
          rw [hsub, Function.update_of_ne (by omega)]
          exact htop
    case isFalse hmixer =>
      have hname : c.name ≠ "mixer" := fun h => hmixer (name_eq_mixer.mp h)
      have hsame := hbelow rest.length (Nat.lt_succ_self _)
      refine ⟨hindex', htouched, fun _ => ⟨hlength, ?_, hroom.start hchain hc⟩⟩
      refine hchain.start hc (fun k hk => hbelow k (by omega)) (congrArg StackEntry.elem hsame) ?_ htop
      rw [permitted_append hname]
      exact (congrArg StackEntry.valid_subelem hsame).trans hchain.valid

theorem parseSectionStartAt_inv {top : OpenElem} {rest : List OpenElem} (h : StackInv p (top :: rest) mixers) :
    StackInv (parseSectionStartAt host name attribs p)
      (⟨name, []⟩ :: ⟨top.name, top.children ++ [name]⟩ :: rest) (mixers + if name = "mixer" then 1 else 0) := by
  have htouch := h.touch
  unfold parseSectionStartAt
  dsimp only
  split
  case isTrue herror => exact htouch.frozen herror _ _
  case isFalse hok =>
    have hnone : p.error = none := Option.not_isSome_iff_eq_none.mp hok
    obtain ⟨hindex, hchain, -⟩ := h.chain hnone
    have hn : p.index = rest.length := by
      rw [List.length_cons, Nat.cast_add, Nat.cast_one] at hindex
      omega
    split
    case h_1 => exact htouch.setError _ _ _
    case h_2 c hc =>
      have hmem : c ∈ (p.entry p.index).valid_subelem ∧ c.name = name := by
        have := List.find?_some hc
        exact of_decide_eq_true this
      rw [hn, hchain.valid] at hmem
      obtain ⟨hpermitted, rfl⟩ := hmem
      split
      · exact htouch.setError _ _ _
      · split
        · obtain ⟨-, hindex', htouched⟩ := htouch.push hnone hpermitted
          exact ⟨hindex', htouched, fun hnone => (by cases hnone)⟩
        · exact startAt_inv htouch hnone hpermitted

theorem parseSectionEndAt_inv {top parent : OpenElem} {rest : List OpenElem}
    (h : StackInv p (top :: parent :: rest) mixers) :
    StackInv (parseSectionEndAt host p) (parent :: rest) mixers := by
  have htouch := h.touch
  unfold parseSectionEndAt
  dsimp only
  split
  case isTrue herror => exact htouch.frozen herror _ _
  case isFalse hok =>
    have hnone : p.error = none := Option.not_isSome_iff_eq_none.mp hok
    obtain ⟨hindex, hchain, hroom⟩ := h.chain hnone
    have hmax := h.index.2
    simp only [List.length_cons, Nat.cast_add, Nat.cast_one] at hindex
    have hindex' : 0 ≤ p.index - 1 ∧ p.index - 1 < (MAX_PARSE_DEPTH : Int) := by omega
    split
    · exact ⟨hindex', htouch.touched, fun hnone => (by cases hnone)⟩
    · refine ⟨hindex', htouch.touched, fun _ => ⟨?_, hchain.2.2.2.2, hroom.stop⟩⟩
      show p.index - 1 + 1 = _
      rw [List.length_cons, Nat.cast_add, Nat.cast_one]
      omega

end

/-! ## Events that are nested -/

/-- From depth `n` on, no element is closed that was not opened. -/
def Nested : Nat → List XmlEvent → Prop
  | _, [] => True
  | n, .start _ _ :: rest => Nested (n + 1) rest
  | 0, .stop _ :: _ => False
  | n + 1, .stop _ :: rest => Nested n rest

theorem Forest.nested_events (f : Forest) (n : Nat) (rest : List XmlEvent) :
    Nested n (f.events ++ rest) ↔ Nested n rest := by
  induction f generalizing n rest with
  | nil => exact Iff.rfl
  | elem name attribs content next ihc ihn =>
    rw [Forest.events, List.cons_append, List.append_assoc, List.cons_append]
    exact (ihc (n + 1) _).trans (ihn n rest)

theorem Nested.of_append {events rest : List XmlEvent} {n : Nat} (h : Nested n (events ++ rest)) :
    Nested n events := by
  induction events generalizing n with
  | nil => trivial
  | cons event events ih =>
    cases event with
    | start name attribs => exact ih (n := n + 1) h
    | stop name =>
      cases n with
      | zero => exact h
      | succ n => exact ih (n := n) h

theorem nested_of_begun {f : Forest} {events : List XmlEvent} (h : events <+: f.events) : Nested 0 events := by
  obtain ⟨rest, hrest⟩ := h
  have hnested : Nested 0 (events ++ rest) := by
    rw [hrest, ← List.append_nil f.events]
    exact (f.nested_events 0 []).mpr trivial
  exact hnested.of_append

/-! ## Runs -/

theorem mixerStarts_start (name : String) (attribs : XmlAttribs) (rest : List XmlEvent) :
    mixerStarts (.start name attribs :: rest) = (if name = "mixer" then 1 else 0) + mixerStarts rest := by
  unfold mixerStarts
  rw [List.countP_cons, Nat.add_comm]
  simp

theorem mixerStarts_stop (name : String) (rest : List XmlEvent) :
    mixerStarts (.stop name :: rest) = mixerStarts rest := by
  unfold mixerStarts
  rw [List.countP_cons]
  rfl

/-- **Run lemma.** -/
theorem parseEventsAt_inv {hosts : Nat → Host} {p : StackState} {events : List XmlEvent} {top : OpenElem}
    {rest : List OpenElem} {mixers : Nat} (h : StackInv p (top :: rest) mixers) (hnested : Nested rest.length events) :
    ∃ top' rest', events.foldl openAfter (top :: rest) = top' :: rest' ∧
      StackInv (parseEventsAt hosts p events) (top' :: rest') (mixers + mixerStarts events) := by
  induction events generalizing hosts p top rest mixers with
  | nil => exact ⟨top, rest, rfl, h⟩
  | cons event events ih =>
    cases event with
    | start name attribs =>
      rw [mixerStarts_start, ← Nat.add_assoc]
      exact ih (parseSectionStartAt_inv h) hnested
    | stop name =>
      cases rest with
      | nil => exact absurd hnested id
      | cons parent rest =>
        rw [mixerStarts_stop]
        exact ih (parseSectionEndAt_inv h) hnested

theorem startState_inv (file : String) (cases : List CodecCase) (entry : Int → StackEntry) :
    StackInv (startState file cases entry) [⟨"", []⟩] 0 := by
  have hzero : (0 : Int) ≤ 0 ∧ (0 : Int) < MAX_PARSE_DEPTH := by decide
  refine ⟨hzero, fun i hi => ?_, fun _ => ⟨rfl, ⟨?_, .nil _⟩, Nat.le_refl 0⟩⟩
  · rw [List.mem_singleton.mp hi]
    exact hzero
  · exact congrArg StackEntry.valid_subelem (Function.update_self (0 : Int) _ entry)

/-! ## The list in place of the array -/

/-- The entries in use, the top first. -/
def StackState.view (p : StackState) : List StackEntry :=
  (List.range (p.index.toNat + 1)).reverse.map fun k : Nat => p.entry k

def ParseState.withStack (st : ParseState) (stack : List StackEntry) : ParseState := { st with stack := stack }

/-- The state with the list for its stack. -/
def StackState.state (p : StackState) : ParseState := p.data.withStack p.view

/-- What a start handler does to the list. -/
def stackAfter (e : Elem) (stack : List StackEntry) : List StackEntry :=
  if e = .mixer then stack.modify 1 fun entry => { entry with valid_subelem := [.device, .stream] } else stack

section

variable {host : Host} {values : Attribs} {st : ParseState} {stack : List StackEntry}

theorem addCtl_stack (c : Ctl) :
    (st.withStack stack).addCtl c = (st.addCtl c).map (·.withStack stack) := by
  unfold ParseState.addCtl ParseState.withStack
  dsimp only
  cases st.current.path with
  | none => cases st.current.scase <;> rfl
  | some path => cases path <;> rfl

theorem modifyStream_stack (f : PStream → PStream) :
    (st.withStack stack).modifyStream f = (st.modifyStream f).map (·.withStack stack) := by
  unfold ParseState.modifyStream ParseState.withStack
  dsimp only
  cases st.current.stream <;> rfl

theorem map_guard {α β : Type} {c : Prop} [Decidable c] (f : α → β) (stop : Stop) (x : Except Stop α) :
    (if c then .error stop else x).map f = if c then .error stop else x.map f := by
  split <;> rfl

theorem map_pass {α β : Type} {c : Prop} [Decidable c] (f : α → β) (stop : Stop) (x : Except Stop α) :
    (if c then x else .error stop).map f = if c then x.map f else .error stop := by
  split <;> rfl

theorem parseCtlStart_stack (host : Host) :
    parseCtlStart host values (st.withStack stack) = (parseCtlStart host values st).map (·.withStack stack) := by
  unfold parseCtlStart
  rw [map_guard]
  cases attribToUint INVALID_CTL_INDEX values .index with
  | none => rfl
  | some index =>
    dsimp only
    rw [addCtl_stack, map_pass]
    rfl

theorem parsePathStart_stack (host : Host) :
    parsePathStart host values (st.withStack stack) = (parsePathStart host values st).map (·.withStack stack) := by
  unfold parsePathStart ParseState.withStack
  dsimp only
  cases st.current.device with
  | none => rfl
  | some d =>
    dsimp only
    rw [map_guard]
    rfl

theorem parseDeviceStart_stack (host : Host) :
    parseDeviceStart host values (st.withStack stack) = (parseDeviceStart host values st).map (·.withStack stack) := by
  unfold parseDeviceStart ParseState.withStack
  cases deviceTable.find? fun entry => entry.1 = text values .name with
  | none => rfl
  | some entry =>
    dsimp only
    rw [map_guard, map_guard]
    rfl

theorem parseStreamStart_stack (host : Host) :
    parseStreamStart host values (st.withStack stack) = (parseStreamStart host values st).map (·.withStack stack) := by
  unfold parseStreamStart ParseState.withStack
  dsimp only
  rw [map_guard, map_guard]
  cases streamType (values .name) (values .type) (values .dir) with
  | none => rfl
  | some type =>
    cases attribToUint INT_MAX values .instances with
    | none => rfl
    | some maxref =>
      dsimp only
      rw [map_pass]
      rfl

theorem parseEnableDisableStart_stack (host : Host) (isEnable : Bool) :
    parseEnableDisableStart isEnable host values (st.withStack stack) =
      (parseEnableDisableStart isEnable host values st).map (·.withStack stack) := by
  unfold parseEnableDisableStart ParseState.withStack
  dsimp only
  cases st.path_names.idxOf? (text values .path) with
  | none => rfl
  | some i => exact modifyStream_stack _

theorem parseUsecaseStart_stack (host : Host) :
    parseUsecaseStart host values (st.withStack stack) =
      (parseUsecaseStart host values st).map (·.withStack stack) := by
  unfold parseUsecaseStart ParseState.withStack
  dsimp only
  cases st.current.stream with
  | none => rfl
  | some s =>
    dsimp only
    rw [map_guard]
    rfl

theorem parseCaseStart_stack (host : Host) :
    parseCaseStart host values (st.withStack stack) = (parseCaseStart host values st).map (·.withStack stack) := by
  unfold parseCaseStart ParseState.withStack
  dsimp only
  cases st.current.usecase with
  | none => rfl
  | some su =>
    dsimp only
    rw [map_guard]
    rfl

theorem parseStreamCtlStart_stack (host : Host) :
    parseStreamCtlStart host values (st.withStack stack) =
      (parseStreamCtlStart host values st).map (·.withStack stack) := by
  unfold parseStreamCtlStart ParseState.withStack
  dsimp only
  cases (st.mixer.getD fun _ => none) (text values .name) with
  | none => rfl
  | some ctl =>
    cases attribToUint 0 values .index with
    | none => rfl
    | some index =>
      dsimp only
      rw [map_guard]
      congr 1
      cases controlLimit values .min ctl.range_min with
      | error stop => rfl
      | ok min =>
        cases controlLimit values .max ctl.range_max with
        | error stop => rfl
        | ok max => exact modifyStream_stack _

theorem parseMixerStart_stack (host : Host) :
    parseMixerStart host values (st.withStack stack) =
      (parseMixerStart host values st).map (·.withStack (stackAfter .mixer stack)) := by
  unfold parseMixerStart ParseState.withStack
  cases attribToUint 0 values .card with
  | none => rfl
  | some card =>
    dsimp only
    cases host.mixer_open card <;> rfl

theorem parseCodecProbeStart_stack (host : Host) :
    parseCodecProbeStart host values (st.withStack stack) =
      (parseCodecProbeStart host values st).map (·.withStack stack) := by
  unfold parseCodecProbeStart ParseState.withStack
  dsimp only
  rw [map_pass]
  rfl

theorem parseCodecCaseStart_stack (host : Host) :
    parseCodecCaseStart host values (st.withStack stack) =
      (parseCodecCaseStart host values st).map (·.withStack stack) := by
  unfold parseCodecCaseStart ParseState.withStack
  dsimp only
  rw [map_guard, map_guard]
  rfl

/-- No handler looks at the stack, and only the mixer's changes it. -/
theorem start_stack (e : Elem) :
    e.start host values (st.withStack stack) =
      (e.start host values st).map (·.withStack (stackAfter e stack)) := by
  cases e with
  | ctl => exact parseCtlStart_stack host
  | path => exact parsePathStart_stack host
  | device => exact parseDeviceStart_stack host
  | stream => exact parseStreamStart_stack host
  | enable => exact parseEnableDisableStart_stack host true
  | disable => exact parseEnableDisableStart_stack host false
  | scase => exact parseCaseStart_stack host
  | usecase => exact parseUsecaseStart_stack host
  | stream_ctl => exact parseStreamCtlStart_stack host
  | mixer => exact parseMixerStart_stack host
  | codec_probe => exact parseCodecProbeStart_stack host
  | codec_case => exact parseCodecCaseStart_stack host
  | init | audiohal => rfl

theorem stop_stack (e : Elem) : e.stop host (st.withStack stack) = (e.stop host st).map (·.withStack stack) := by
  cases e with
  | codec_probe =>
    show parseCodecProbeEnd host _ = (parseCodecProbeEnd host st).map (·.withStack stack)
    unfold parseCodecProbeEnd probeConfigFile ParseState.withStack
    cases host.codec_line with
    | none => rfl
    | some line =>
      dsimp only
      cases st.codec_cases.find? fun c => c.codec_name = probeTrimSpaces line with
      | none => rfl
      | some c =>
        dsimp only
        rw [map_guard]
        rfl
  | _ => rfl

end

section

variable {host : Host} {p : StackState}

/-- The first `n` entries, the last of them first. -/
theorem entries_succ (entry : Int → StackEntry) (n : Nat) :
    (List.range (n + 1)).reverse.map (fun k : Nat => entry k) =
      entry n :: (List.range n).reverse.map fun k : Nat => entry k := by
  rw [List.range_succ, List.reverse_append, List.reverse_singleton, List.singleton_append, List.map_cons]

theorem entries_update (entry : Int → StackEntry) {n : Nat} {i : Int} (top : StackEntry) (hi : (n : Int) ≤ i) :
    (List.range n).reverse.map (fun k : Nat => Function.update entry i top k) =
      (List.range n).reverse.map fun k : Nat => entry k := by
  refine List.map_congr_left fun k hk => Function.update_of_ne ?_ _ _
  have := List.mem_range.mp (List.mem_reverse.mp hk)
  omega

/-- The view of an index that is not below the array. -/
theorem view_eq {n : Nat} (hn : p.index = n) :
    p.view = p.entry n :: (List.range n).reverse.map fun k : Nat => p.entry k := by
  unfold StackState.view
  rw [hn, Int.toNat_natCast, entries_succ]

theorem push_view {n : Nat} (hn : p.index = n) (top : StackEntry) : (p.push top).view = top :: p.view := by
  have hpush : (p.push top).index = (n + 1 : Nat) := by
    unfold StackState.push
    dsimp only
    omega
  rw [view_eq hpush, view_eq hn, ← entries_succ]
  unfold StackState.push
  dsimp only
  rw [hn, ← Int.natCast_succ, entries_succ, Function.update_self, entries_update _ _ (Int.le_refl _), entries_succ]

/-- The element around the mixer is the second of the list. -/
theorem allow_view {n : Nat} (hn : p.index = (n + 1 : Nat)) (valid : List Elem) :
    (p.allow valid).view = p.view.modify 1 fun entry => { entry with valid_subelem := valid } := by
  have hallow : (p.allow valid).index = (n + 1 : Nat) := hn
  have hsub : p.index - 1 = n := by
    rw [hn]
    omega
  rw [view_eq hallow, view_eq hn, entries_succ, entries_succ]
  unfold StackState.allow
  dsimp only
  rw [hsub, Function.update_self, Function.update_of_ne (by omega), entries_update _ _ (Int.le_refl _)]
  rfl

/-- What one event leaves, as the list has it. -/
def StackState.result (p : StackState) : Except Stop ParseState :=
  match p.error with
  | none => .ok p.state
  | some stop => .error stop

theorem result_ok (herror : p.error = none) : p.result = .ok p.state := by
  unfold StackState.result
  rw [herror]

theorem startAt_result {e : Elem} {values : Attribs} {n : Nat} (herror : p.error = none)
    (hn : p.index = (n + 1 : Nat)) : (startAt host e values p).result = e.start host values p.state := by
  unfold StackState.state
  rw [start_stack]
  unfold startAt
  cases e.start host values p.data with
  | error stop => rfl
  | ok data =>
    dsimp only
    split
    case isTrue hmixer =>
      subst hmixer
      refine (result_ok (p := StackState.allow { p with data := data } _) herror).trans ?_
      exact congrArg (fun stack => Except.ok (data.withStack stack)) (allow_view (p := { p with data := data }) hn _)
    case isFalse hmixer =>
      refine (result_ok (p := { p with data := data }) herror).trans ?_
      unfold stackAfter
      rw [if_neg hmixer]
      rfl

theorem parseSectionStartAt_result {name : String} {attribs : XmlAttribs} {n : Nat} (herror : p.error = none)
    (hn : p.index = n) :
    (parseSectionStartAt host name attribs p).result = parseSectionStart host name attribs p.state := by
  have hstack : p.state.stack = p.entry n :: (List.range n).reverse.map fun k : Nat => p.entry k := view_eq hn
  have hlength : (p.touch p.index).index ≥ MAX_PARSE_DEPTH ↔
      (p.entry n :: (List.range n).reverse.map fun k : Nat => p.entry k).length > MAX_PARSE_DEPTH := by
    rw [List.length_cons, List.length_map, List.length_reverse, List.length_range]
    show p.index ≥ _ ↔ _
    omega
  have hok : ¬ (p.touch p.index).error.isSome = true := by
    rw [show (p.touch p.index).error = none from herror]
    exact Bool.false_ne_true
  have htop : (p.touch p.index).entry (p.touch p.index).index = p.entry n := congrArg p.entry hn
  have hpush (e : Elem) : ((p.touch p.index).push ⟨e, e.valid_subelem⟩).state =
      { p.state with stack := ⟨e, e.valid_subelem⟩ :: p.state.stack } :=
    congrArg p.data.withStack (push_view (p := p.touch p.index) hn _)
  have hindex (e : Elem) : ((p.touch p.index).push ⟨e, e.valid_subelem⟩).index = (n + 1 : Nat) := by
    unfold StackState.push StackState.touch
    dsimp only
    omega
  unfold parseSectionStartAt parseSectionStart
  dsimp only
  rw [if_neg hok, htop, hstack]
  dsimp only
  simp only [hlength]
  cases resolve (p.entry n).valid_subelem name with
  | none => rfl
  | some e =>
    dsimp only
    split
    case isTrue => rfl
    case isFalse =>
      cases extractAttribs e attribs with
      | none => rfl
      | some values =>
        refine (startAt_result (p := (p.touch p.index).push _) herror (hindex e)).trans ?_
        rw [hpush, hstack]

theorem parseSectionEndAt_result {n : Nat} (herror : p.error = none) (hn : p.index = (n + 1 : Nat)) :
    (parseSectionEndAt host p).result = parseSectionEnd host p.state := by
  have hstack : p.state.stack = p.entry (n + 1 : Nat) :: (List.range (n + 1)).reverse.map fun k : Nat => p.entry k :=
    view_eq hn
  have hok : ¬ (p.touch p.index).error.isSome = true := by
    rw [show (p.touch p.index).error = none from herror]
    exact Bool.false_ne_true
  have htop : (p.touch p.index).entry (p.touch p.index).index = p.entry (n + 1 : Nat) := congrArg p.entry hn
  have htail (data : ParseState) : (StackState.mk (p.index - 1) p.entry none data p.touched).view =
      (List.range (n + 1)).reverse.map fun k : Nat => p.entry k := by
    have hindex : (StackState.mk (p.index - 1) p.entry none data p.touched).index = n := by
      show p.index - 1 = n
      omega
    rw [view_eq hindex, entries_succ]
  unfold parseSectionEndAt parseSectionEnd
  dsimp only
  rw [if_neg hok, htop, hstack]
  dsimp only
  unfold StackState.state
  rw [stop_stack, show (p.touch p.index).data = p.data from rfl]
  cases (p.entry (n + 1 : Nat)).elem.stop host p.data with
  | error stop => rfl
  | ok data =>
    refine (result_ok (p := { p.touch p.index with index := p.index - 1, data := data }) herror).trans ?_
    refine congrArg (fun stack => Except.ok (data.withStack stack)) ((htail data).trans ?_)
    exact (congrArg List.tail hstack).symm

/-- **The list is what the array holds.** -/
theorem handleAt_view {event : XmlEvent} {n : Nat} (herror : p.error = none)
    (hn : p.index = match event with
      | .start _ _ => (n : Int)
      | .stop _ => (n + 1 : Nat)) :
    (handleAt host p event).result = handle host p.state event := by
  cases event with
  | start name attribs => exact parseSectionStartAt_result herror hn
  | stop name => exact parseSectionEndAt_result herror hn

end

/-- **Stack and grammar.** -/
theorem stack_within_grammar (hosts : Nat → Host) (file : String) (cases : List CodecCase) (entry : Int → StackEntry)
    (f : Forest) (events : List XmlEvent) (h : events <+: f.events) :
    (∀ i ∈ (parseEventsAt hosts (startState file cases entry) events).touched, 0 ≤ i ∧ i ≤ MAX_PARSE_DEPTH - 1) ∧
      ((parseEventsAt hosts (startState file cases entry) events).error = none →
        (parseEventsAt hosts (startState file cases entry) events).index + 1 = (openElements events).length ∧
          ChainOf (parseEventsAt hosts (startState file cases entry) events).entry (openElements events) ∧
          mixerStarts events ≤ rootStarts (openElements events)) := by
  obtain ⟨top, rest, hopen, hinv⟩ :=
    @parseEventsAt_inv hosts _ _ _ _ _ (startState_inv file cases entry) (nested_of_begun h)
  refine ⟨fun i hi => ?_, fun hnone => ?_⟩
  · have := hinv.touched i hi
    omega
  · obtain ⟨hindex, hchain, hroom⟩ := hinv.chain hnone
    unfold openElements
    rw [hopen]
    refine ⟨hindex, hchain, ?_⟩
    rw [Nat.zero_add] at hroom
    exact hroom.roots (List.cons_ne_nil _ _)

/-- A device whose card opens. -/
def cardHost : Host := ⟨true, fun _ => some fun _ => none, none⟩

/-- A mixer, then the deepest nesting there is. -/
def deepestEvents : List XmlEvent :=
  [.start "audiohal" [], .start "mixer" [], .stop "mixer", .start "stream" [("type", "pcm"), ("dir", "out")],
    .start "usecase" [("name", "dock")], .start "case" [("name", "on")],
    .start "ctl" [("name", "Dock Switch"), ("val", "1")]]

def deepest : Forest :=
  .elem "audiohal" [] (.elem "mixer" [] .nil <| .elem "stream" [("type", "pcm"), ("dir", "out")]
    (.elem "usecase" [("name", "dock")]
      (.elem "case" [("name", "on")] (.elem "ctl" [("name", "Dock Switch"), ("val", "1")] .nil .nil) .nil) .nil)
    .nil) .nil

/-- The last entry of the array is reached. -/
theorem stack_of_deepest :
    (parseEventsAt (fun _ => cardHost) (startState "audio.mocha.xml" [] fun _ => ⟨.ctl, []⟩) deepestEvents).index = 5 := by
  have hok : (parseEventsAt (fun _ => cardHost) (startState "audio.mocha.xml" [] fun _ => ⟨.ctl, []⟩)
      deepestEvents).error.isSome = false := by decide
  obtain ⟨hindex, -⟩ := (stack_within_grammar (fun _ => cardHost) "audio.mocha.xml" [] (fun _ => ⟨.ctl, []⟩) deepest
    deepestEvents (by decide)).2 (Option.isSome_eq_false_iff.mp hok |> Option.isNone_iff_eq_none.mp)
  have hlength : (openElements deepestEvents).length = 6 := by decide
  omega

end MochaHal.Audio.Parser
