import MochaHal.Audio.ApplyCtls
import MochaHal.Audio.Volume

/-! Use cases: parameters that a client sends to a stream in `audio/audio_hw.c` and the
cases that `configmgr/audio_config.c` applies for them.  Every part "name=case" of the
text that the stream has is applied, in order, and the others are passed over. -/

namespace MochaHal.Audio.TinyMixer
open MochaHal.Audio.Parser MochaHal.Audio.ByteCtl MochaHal.Writes MochaHal.Strtok

/-! ## The source -/

def ENOTSUP : Int := 95

/-- The inner loop of `apply_use_case`, from the case with index `j` on. -/
def caseLoop (case_name : String) (j : Nat) : List SCase → Option Nat
  | [] => none
  | pcase :: rest => if pcase.name = case_name then some j else caseLoop case_name (j + 1) rest

/-- The loops of `apply_use_case`: the use case and the case that they find. -/
def usecaseLoop (setting case_name : String) (i : Nat) : List UseCase → Option (Nat × Nat)
  | [] => none
  | puc :: rest =>
    if puc.name = setting then
      match caseLoop case_name 0 puc.cases with
      | some j => some (i, j)
      | none => usecaseLoop setting case_name (i + 1) rest
    else usecaseLoop setting case_name (i + 1) rest

variable {κ : Type} [DecidableEq κ]

/-- `apply_use_case`; `key` says which array of controls a case has. -/
def apply_use_case (card : Card) (key : Nat × Nat → κ) (usecases : List UseCase) (setting case_name : String)
    (world : Nat → World) (m : Mgr κ) : Option (Int × Mgr κ) :=
  match usecaseLoop setting case_name 0 usecases with
  | none => some (-ENOSYS, m)
  | some k => (m.apply card (key k, world)).map fun m => (0, m)

/-- What the loop of `stream_invoke_usecases` carries, with the number of its turn. -/
structure Invoked (κ : Type) where
  ret : Int
  turn : Nat
  mgr : Mgr κ

/-- One turn: `strchr` finds the first '=', and nothing is done if it ends the token. -/
def invokeToken (card : Card) (key : Nat × Nat → κ) (usecases : List UseCase) (world : Nat → Nat → World)
    (a : Invoked κ) (p : List Char) : Except Unit (Invoked κ) :=
  match p.dropWhile (· ≠ '=') with
  | _ :: c :: rest =>
    match apply_use_case card key usecases (String.ofList (p.takeWhile (· ≠ '='))) (String.ofList (c :: rest))
      (world a.turn) a.mgr with
    | none => .error ()
    | some (ret, m) => .ok ⟨if ret ≥ 0 then 0 else a.ret, a.turn + 1, m⟩
  | _ => .ok { a with turn := a.turn + 1 }

/-- `stream_invoke_usecases`; `none` where memory is used that may not be. -/
def stream_invoke_usecases (card : Card) (key : Nat × Nat → κ) (stream : Option (List UseCase)) (strdup : Bool)
    (kvpairs : CString) (world : Nat → Nat → World) (m : Mgr κ) : Option (Int × Mgr κ) :=
  if strdup = false then some (-ENOMEM, m)
  else
    match stream with
    | none => some (-ENOTSUP, m)
    | some usecases =>
      (forTokens ';' (invokeToken card key usecases world) ⟨-ENOTSUP, 0, m⟩ (kvpairs.text ++ [NUL])).bind fun r =>
        match r.1 with
        | .error _ => none
        | .ok a => some (a.ret, a.mgr)

/-! ## Cases by their names -/

/-- All cases of a stream, in order, by the names of the use case and the case. -/
def settings (usecases : List UseCase) : List ((String × String) × SCase) :=
  usecases.flatMap fun u => u.cases.map fun c => ((u.name, c.name), c)

/-- The names in a part of the parameters. -/
def namesOf (p : List Char) : Option (String × String) :=
  match p.dropWhile (· ≠ '=') with
  | _ :: c :: rest => some (String.ofList (p.takeWhile (· ≠ '=')), String.ofList (c :: rest))
  | _ => none

/-- The case that a part of the parameters asks for. -/
def caseOf (usecases : List UseCase) (p : List Char) : Option SCase :=
  (namesOf p).bind fun names => (settings usecases).lookup names

/-- The writes for a part of the parameters. -/
def caseWrites (card : Card) (usecases : List UseCase) (p : List Char) : List Write :=
  ((caseOf usecases p).map fun c => applyCtls (ctlWrites card) c.ctls).getD []

variable {card : Card} {key : Nat × Nat → κ} {texts : κ → List CtlText} {usecases : List UseCase}
  {setting case_name : String}

theorem caseLoop_spec (setting : String) (cs : List SCase) (j : Nat) :
    caseLoop case_name j cs = none ∧
        (cs.map fun c => ((setting, c.name), c)).lookup (setting, case_name) = none ∨
      ∃ i c, caseLoop case_name j cs = some (j + i) ∧ cs[i]? = some c ∧
        (cs.map fun c => ((setting, c.name), c)).lookup (setting, case_name) = some c := by
  induction cs generalizing j with
  | nil => exact .inl ⟨rfl, rfl⟩
  | cons c cs ih =>
    unfold caseLoop
    rw [List.map_cons, List.lookup_cons]
    by_cases hname : c.name = case_name
    · subst hname
      exact .inr ⟨0, c, by simp, rfl, by simp⟩
    · have hne : ((setting, case_name) == (setting, c.name)) = false := by simp [Ne.symm hname]
      rw [if_neg hname, hne]
      rcases ih (j + 1) with ⟨hnone, hlookup⟩ | ⟨i, d, hsome, hget, hlookup⟩
      · exact .inl ⟨hnone, hlookup⟩
      · exact .inr ⟨i + 1, d, by rw [hsome]; congr 1; omega, hget, hlookup⟩

theorem lookup_map_of_ne {u : String} (cs : List SCase) (h : u ≠ setting) :
    (cs.map fun c => ((u, c.name), c)).lookup (setting, case_name) = none := by
  induction cs with
  | nil => rfl
  | cons c cs ih =>
    have hne : ((setting, case_name) == (u, c.name)) = false := by simp [Ne.symm h]
    rw [List.map_cons, List.lookup_cons, hne]
    exact ih

/-- The loops find the first case of the two names. -/
theorem usecaseLoop_spec (us : List UseCase) (i : Nat) :
    usecaseLoop setting case_name i us = none ∧ (settings us).lookup (setting, case_name) = none ∨
      ∃ n j u c, usecaseLoop setting case_name i us = some (i + n, j) ∧ us[n]? = some u ∧ u.cases[j]? = some c ∧
        (settings us).lookup (setting, case_name) = some c := by
  induction us generalizing i with
  | nil => exact .inl ⟨rfl, rfl⟩
  | cons u us ih =>
    have hrest : (u.cases.map fun c => ((u.name, c.name), c)).lookup (setting, case_name) = none →
        (settings (u :: us)).lookup (setting, case_name) = (settings us).lookup (setting, case_name) := by
      intro hnone
      rw [settings, List.flatMap_cons, List.lookup_append, hnone, Option.none_or]
      rfl
    have hlater : usecaseLoop setting case_name i (u :: us) = usecaseLoop setting case_name (i + 1) us →
        (u.cases.map fun c => ((u.name, c.name), c)).lookup (setting, case_name) = none →
        usecaseLoop setting case_name i (u :: us) = none ∧ (settings (u :: us)).lookup (setting, case_name) = none ∨
          ∃ n j v c, usecaseLoop setting case_name i (u :: us) = some (i + n, j) ∧ (u :: us)[n]? = some v ∧
            v.cases[j]? = some c ∧ (settings (u :: us)).lookup (setting, case_name) = some c := by
      intro hloop hnone
      rw [hloop, hrest hnone]
      rcases ih (i + 1) with hno | ⟨n, j, v, c, hsome, hv, hc, hlookup⟩
      · exact .inl hno
      · exact .inr ⟨n + 1, j, v, c, by rw [hsome, show i + 1 + n = i + (n + 1) by omega], hv, hc, hlookup⟩
    by_cases hname : u.name = setting
    · subst hname
      rcases caseLoop_spec u.name u.cases 0 with ⟨hno, hlookup⟩ | ⟨j, c, hsome, hget, hlookup⟩
      · exact hlater (by rw [usecaseLoop, if_pos rfl, hno]) hlookup
      · refine .inr ⟨0, j, u, c, ?_, rfl, hget, ?_⟩
        · rw [usecaseLoop, if_pos rfl, hsome]
          simp
        · rw [settings, List.flatMap_cons, List.lookup_append, hlookup, Option.some_or]
    · exact hlater (by rw [usecaseLoop, if_neg hname]) (lookup_map_of_ne u.cases hname)

/-! ## The parts of the parameters -/

/-- The arrays of the cases are those of the texts. -/
def Rendered (key : Nat × Nat → κ) (texts : κ → List CtlText) (usecases : List UseCase) : Prop :=
  ∀ i j u c, usecases[i]? = some u → u.cases[j]? = some c → (texts (key (i, j))).map CtlText.ctl = c.ctls

variable {m : Mgr κ} {p : List Char}

omit [DecidableEq κ] in
theorem caseWrites_none (h : caseOf usecases p = none) : caseWrites card usecases p = [] := by
  rw [caseWrites, h]
  rfl

/-- One part of the parameters. -/
theorem invokeToken_spec (hr : Rendered key texts usecases) (world : Nat → Nat → World) (a : Invoked κ)
    (h : a.mgr.Inv card texts) (p : List Char) :
    ∃ m', invokeToken card key usecases world a p =
        .ok ⟨if (caseOf usecases p).isSome then 0 else a.ret, a.turn + 1, m'⟩ ∧ m'.Inv card texts ∧
      Wrote (caseWrites card usecases p) (Calm (world a.turn)) a.mgr.state m'.state := by
  unfold invokeToken
  split
  case h_1 d c rest hp =>
    have hnames : namesOf p = some (String.ofList (p.takeWhile (· ≠ '=')), String.ofList (c :: rest)) := by
      rw [namesOf, hp]
    have hcase : caseOf usecases p = (settings usecases).lookup
        (String.ofList (p.takeWhile (· ≠ '=')), String.ofList (c :: rest)) := by
      rw [caseOf, hnames, Option.bind_some]
    unfold apply_use_case
    rcases @usecaseLoop_spec (String.ofList (p.takeWhile (· ≠ '='))) (String.ofList (c :: rest)) usecases 0 with
      ⟨hnone, hlookup⟩ | ⟨n, j, u, sc, hsome, hu, hsc, hlookup⟩
    · rw [hlookup] at hcase
      rw [hnone, hcase, caseWrites_none hcase]
      exact ⟨a.mgr, rfl, h, .nothing rfl⟩
    · rw [hlookup] at hcase
      rw [Nat.zero_add] at hsome
      obtain ⟨m', happly, hinv, hwrote⟩ := apply_inv h (key (n, j), world a.turn)
      have hwrites : caseWrites card usecases p = listWrites card (texts (key (n, j))) := by
        rw [caseWrites, hcase, listWrites, hr n j u sc hu hsc]
        rfl
      rw [hsome, hcase, hwrites]
      dsimp only
      rw [happly]
      exact ⟨m', rfl, hinv, hwrote⟩
  case h_2 hp =>
    have hnames : namesOf p = none := by
      unfold namesOf
      split
      case h_1 d c rest heq => exact absurd heq (hp d c rest)
      case h_2 => rfl
    have hcase : caseOf usecases p = none := by rw [caseOf, hnames, Option.bind_none]
    rw [hcase, caseWrites_none hcase]
    exact ⟨a.mgr, rfl, h, .nothing rfl⟩

theorem invokeTokens_spec (hr : Rendered key texts usecases) (world : Nat → Nat → World) (ps : List (List Char))
    (a : Invoked κ) (h : a.mgr.Inv card texts) :
    ∃ a', ps.foldlM (invokeToken card key usecases world) a = .ok a' ∧
      a'.ret = (if ∃ p ∈ ps, (caseOf usecases p).isSome then 0 else a.ret) ∧ a'.mgr.Inv card texts ∧
      Wrote (ps.flatMap (caseWrites card usecases)) (∀ n, Calm (world n)) a.mgr.state a'.mgr.state := by
  induction ps generalizing a with
  | nil => exact ⟨a, rfl, by simp, h, .nothing rfl⟩
  | cons p ps ih =>
    obtain ⟨m₁, hstep, hinv, hwrote⟩ := invokeToken_spec hr world a h p
    obtain ⟨a', hrest, hret, hinv', hwrote'⟩ := ih ⟨_, a.turn + 1, m₁⟩ hinv
    refine ⟨a', by rw [List.foldlM_cons, hstep]; exact hrest, ?_, hinv',
      (hwrote.weaken fun hcalm => hcalm a.turn).append hwrote'⟩
    rw [hret]
    by_cases hp : (caseOf usecases p).isSome <;> simp [hp]

/-- **Parameters.**  In any state of the configuration, the parameters that a client sends succeed
if there is memory for a copy of them and one of their parts asks for a case of the stream, and
the mixer gets the writes of all the cases asked for, in order; when calls fail it gets no
others. -/
theorem invoke_usecases_values (hr : Rendered key texts usecases) (h : m.Inv card texts) (strdup : Bool)
    (kvpairs : CString) (world : Nat → Nat → World) :
    ∃ ret m', stream_invoke_usecases card key (some usecases) strdup kvpairs world m = some (ret, m') ∧
      ret = (if strdup = false then -ENOMEM
        else if ∃ p ∈ Strtok.tokens ';' kvpairs.text, (caseOf usecases p).isSome then 0 else -ENOTSUP) ∧
      m'.Inv card texts ∧ (strdup = false → m' = m) ∧
      (strdup = true → (∀ n, Calm (world n)) → m'.state.values =
        store ((Strtok.tokens ';' kvpairs.text).flatMap (caseWrites card usecases)) m.state.values) ∧
      ∀ k, m'.state.values k = m.state.values k ∨
        ∃ p ∈ Strtok.tokens ';' kvpairs.text, (k, m'.state.values k) ∈ caseWrites card usecases p := by
  cases strdup with
  | false => exact ⟨_, m, rfl, rfl, h, fun _ => rfl, fun h => absurd h Bool.false_ne_true, fun k => .inl rfl⟩
  | true =>
    obtain ⟨a', hfold, hret, hinv, ⟨done, hsub, hall, hvalues⟩⟩ :=
      invokeTokens_spec hr world (Strtok.tokens ';' kvpairs.text) ⟨-ENOTSUP, 0, m⟩ h
    obtain ⟨cut, hloop⟩ := @forTokens_eq _ _ ';' kvpairs.text [] (invokeToken card key usecases world) (by decide)
      kvpairs.no_nul ⟨-ENOTSUP, 0, m⟩
    refine ⟨a'.ret, a'.mgr, ?_, hret, hinv, fun h => absurd h.symm Bool.false_ne_true, fun _ hcalm => ?_, fun k => ?_⟩
    · rw [stream_invoke_usecases, if_neg (by decide)]
      simp only [hloop, hfold]
      rfl
    · rw [hvalues, hall hcalm]
    · rw [hvalues]
      rcases store_mem done m.state.values k with hkeep | hmem
      · exact .inl hkeep
      · exact .inr (List.mem_flatMap.mp (hsub.subset hmem))

def equalizer : List UseCase := [⟨"eq", [⟨"off", []⟩]⟩, ⟨"eq", [⟨"loud", louder.map CtlText.ctl⟩]⟩]

def equalizerTexts (k : Nat × Nat) : List CtlText := if k = (1, 0) then louder else []

/-- The second use case of the name has the case. -/
theorem invoke_usecases_values_equalizer : ∃ ret m',
    stream_invoke_usecases twoCtls id (some equalizer) true
      ⟨"eq=soft;x;eq=loud;y=".toList, by decide, by decide⟩ (fun _ _ => quietWorld)
      (.read twoCtls equalizerTexts ⟨fun _ => 9, fun _ => false⟩) = some (ret, m') ∧
    ret = 0 ∧ m'.state.values (0, 0) = 30 ∧ m'.state.values (1, 1) = 7 ∧ m'.state.values (1, 0) = 9 := by
  have hr : Rendered id equalizerTexts equalizer := by
    rintro (_ | _ | i) (_ | j) u c hu hc <;> cases hu <;> cases hc <;> rfl
  have hinv : (Mgr.read twoCtls equalizerTexts ⟨fun _ => 9, fun _ => false⟩).Inv twoCtls equalizerTexts :=
    inv_read _ nines_bytes
  obtain ⟨ret, m', hinvoke, hret, -, -, hvalues, -⟩ := invoke_usecases_values hr hinv true
    ⟨"eq=soft;x;eq=loud;y=".toList, by decide, by decide⟩ fun _ _ => quietWorld
  refine ⟨ret, m', hinvoke, hret.trans (by decide), ?_⟩
  rw [hvalues rfl fun _ _ => ⟨rfl, fun _ _ => rfl⟩]
  show store _ (fun _ => 9) (0, 0) = 30 ∧ store _ (fun _ => 9) (1, 1) = 7 ∧ store _ (fun _ => 9) (1, 0) = 9
  decide

end MochaHal.Audio.TinyMixer
