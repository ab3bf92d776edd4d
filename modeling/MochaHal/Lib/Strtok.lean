import Mathlib.Data.List.SplitBy
import Mathlib.Data.List.TakeWhile

/-! `strtok` with one separator, and the loop over its tokens.  `strtok` overwrites the
separator behind each token, so the text is gone after a loop; what a loop computes is a
fold over the non-empty pieces of the text between separators (`tokenLoop_eq`). -/

namespace MochaHal.Strtok

def NUL : Char := Char.ofNat 0

/-- A buffer that is cut, at the place where `strtok` goes on. -/
structure Cut where
  before : List Char
  rest : List Char

def Cut.buf (s : Cut) : List Char := s.before ++ s.rest

/-- The next token, and the end that is written behind it. -/
def strtok (sep : Char) (s : Cut) : Option (List Char) × Cut :=
  let skipped := s.rest.takeWhile (· = sep)
  let text := s.rest.dropWhile (· = sep)
  let token := text.takeWhile fun c => c ≠ sep ∧ c ≠ NUL
  if token = [] then (none, ⟨s.before ++ skipped, text⟩)
  else
    match text.dropWhile fun c => c ≠ sep ∧ c ≠ NUL with
    | [] => (some token, ⟨s.before ++ skipped ++ token, []⟩)
    | c :: rest =>
      if c = sep then (some token, ⟨s.before ++ skipped ++ token ++ [NUL], rest⟩)
      else (some token, ⟨s.before ++ skipped ++ token, c :: rest⟩)

variable {α ε : Type}

/-- The loop `for (p = strtok(..); p != NULL; p = strtok(NULL, ..))`, from `p` on.  Its
body goes on or stops the loop; `none` is a loop that takes more turns than `fuel`. -/
def tokenLoop (sep : Char) (body : α → List Char → Except ε α) :
    Nat → Option (List Char) → α → Cut → Option (Except ε α × Cut)
  | 0, _, _, _ => none
  | _ + 1, none, a, s => some (.ok a, s)
  | fuel + 1, some p, a, s =>
    match body a p with
    | .error e => some (.error e, s)
    | .ok a => tokenLoop sep body fuel (strtok sep s).1 a (strtok sep s).2

/-- The loop over a buffer. -/
def forTokens (sep : Char) (body : α → List Char → Except ε α) (a : α) (buf : List Char) :
    Option (Except ε α × Cut) :=
  tokenLoop sep body (buf.length + 1) (strtok sep ⟨[], buf⟩).1 a (strtok sep ⟨[], buf⟩).2

/-- The pieces between separators that are not empty. -/
def tokens (sep : Char) (text : List Char) : List (List Char) := (text.splitOn sep).filter (· ≠ [])

variable {sep : Char} {text before : List Char}

/-! ## Tokens -/

theorem tokens_skip (sep : Char) (text : List Char) : tokens sep (text.dropWhile (· = sep)) = tokens sep text := by
  induction text with
  | nil => rfl
  | cons c text ih =>
    by_cases hc : c = sep
    · rw [List.dropWhile_cons_of_pos (by simpa using hc), ih]
      simp [tokens, List.splitOn_cons_eq_if_modifyHead, hc]
    · rw [List.dropWhile_cons_of_neg (by simpa using hc)]

/-- The first token and the rest, which starts at a separator. -/
theorem tokens_eq_cons (token rest : List Char) (hne : token ≠ []) (htoken : sep ∉ token)
    (hrest : ∀ c ∈ rest.head?, c = sep) : tokens sep (token ++ rest) = token :: tokens sep rest.tail := by
  cases rest with
  | nil => simp [tokens, List.splitOn_eq_singleton htoken, hne]
  | cons c rest =>
    obtain rfl : c = sep := hrest c rfl
    simp [tokens, List.splitOn_append_cons_self_of_not_mem htoken, hne]

/-- A text that does not start with a separator starts with a token. -/
theorem exists_token (c : Char) (t : List Char) (hc : c ≠ sep) :
    ∃ token rest, c :: t = token ++ rest ∧ token ≠ [] ∧ sep ∉ token ∧ ∀ d ∈ rest.head?, d = sep := by
  refine ⟨(c :: t).takeWhile (· ≠ sep), (c :: t).dropWhile (· ≠ sep), List.takeWhile_append_dropWhile.symm, ?_, ?_, ?_⟩
  · rw [List.takeWhile_cons_of_pos (by simpa using hc)]
    exact List.cons_ne_nil _ _
  · intro hmem
    simpa using List.mem_takeWhile_imp hmem
  · intro d hd
    have := List.head?_dropWhile_not (fun d => decide (d ≠ sep)) (c :: t)
    rw [hd] at this
    simpa using this

/-- A separator at the front is skipped. -/
theorem tokens_tail {rest : List Char} (hrest : ∀ d ∈ rest.head?, d = sep) :
    tokens sep rest = tokens sep rest.tail := by
  cases rest with
  | nil => rfl
  | cons d rest =>
    obtain rfl : d = sep := hrest d rfl
    simp [tokens, List.splitOn_cons_eq_if_modifyHead]

/-- A run of separators, or of other characters, is split off as one piece. -/
theorem splitBy_run (b : Bool) (run rest : List Char) (hne : run ≠ []) (hrun : ∀ c ∈ run, (c == sep) = b)
    (hrest : ∀ d ∈ rest.head?, (d == sep) = !b) :
    (run ++ rest).splitBy (fun a b => (a == sep) == (b == sep)) =
      run :: rest.splitBy fun a b => (a == sep) == (b == sep) := by
  have hchain : run.IsChain fun x y => ((x == sep) == (y == sep)) = true := by
    apply List.Pairwise.isChain
    exact List.pairwise_of_forall_mem_list fun x hx y hy => by rw [hrun x hx, hrun y hy, beq_self_eq_true]
  rw [List.splitBy_append, List.splitBy_of_isChain hne hchain]
  · rfl
  · intro x hx y hy
    rw [hrun x (List.mem_of_mem_getLast? hx), hrest y hy]
    cases b <;> rfl

/-- The tokens are the runs that are not of separators. -/
theorem tokens_eq_splitBy (sep : Char) (text : List Char) :
    tokens sep text =
      (text.splitBy fun a b => (a == sep) == (b == sep)).filter fun token => token.head? ≠ some sep := by
  induction hlen : text.length using Nat.strong_induction_on generalizing text with
  | _ n ih =>
    cases text with
    | nil => rfl
    | cons c text =>
      by_cases hc : c = sep
      · have hsplit : c :: text = (c :: text).takeWhile (· = sep) ++ (c :: text).dropWhile (· = sep) :=
          List.takeWhile_append_dropWhile.symm
        have hfront : (c :: text).takeWhile (· = sep) = sep :: text.takeWhile (· = sep) := by
          rw [List.takeWhile_cons_of_pos (by simpa using hc), hc]
        have hrun := @splitBy_run sep true _ ((c :: text).dropWhile (· = sep)) (hfront ▸ List.cons_ne_nil _ _)
          (fun d hd => by simpa using List.mem_takeWhile_imp hd)
          (fun d hd => by
            have := List.head?_dropWhile_not (fun d => decide (d = sep)) (c :: text)
            rw [hd] at this
            simpa using this)
        rw [← hsplit] at hrun
        have hshort : ((c :: text).dropWhile (· = sep)).length < n := by
          have h1 := congrArg List.length hsplit
          have h2 := congrArg List.length hfront
          rw [List.length_append] at h1
          rw [List.length_cons] at h2
          omega
        rw [← tokens_skip sep (c :: text), ih _ hshort _ rfl, hrun, hfront]
        simp
      · obtain ⟨token, rest, hsplit, hne, htoken, hrest⟩ := exists_token c text hc
        have hrun := @splitBy_run sep false token rest hne
          (fun d hd => by
            have : d ≠ sep := fun h => htoken (h ▸ hd)
            simpa using this)
          (fun d hd => by simpa using hrest d hd)
        have hhead : token.head? ≠ some sep := fun h => htoken (List.mem_of_mem_head? h)
        have hshort : rest.length < n := by
          have h1 := congrArg List.length hsplit
          have h2 := List.length_pos_iff.mpr hne
          rw [List.length_append] at h1
          omega
        rw [hsplit, tokens_eq_cons token rest hne htoken hrest, ← tokens_tail hrest, ih _ hshort _ rfl, hrun]
        simp [hhead]

variable {behind : List Char}

/-- The terminator ends the separators that are skipped. -/
theorem skip_append (hsep : sep ≠ NUL) (text behind : List Char) :
    (text ++ NUL :: behind).dropWhile (· = sep) = text.dropWhile (· = sep) ++ NUL :: behind := by
  rw [List.dropWhile_append]
  split
  case isTrue hempty =>
    rw [List.isEmpty_iff.mp hempty, List.dropWhile_cons_of_neg (by simpa using hsep.symm), List.nil_append]
  case isFalse => rfl

/-- A token ends at a separator, which is overwritten, or at the terminator, which is not. -/
theorem strtok_token {buf token rest : List Char} {d : Char} (hskip : buf.dropWhile (· = sep) = token ++ d :: rest)
    (hne : token ≠ []) (htoken : ∀ c ∈ token, c ≠ sep ∧ c ≠ NUL) (hd : d = sep ∨ d = NUL) :
    ∃ before', strtok sep ⟨before, buf⟩ = (some token, ⟨before', if d = sep then rest else d :: rest⟩) := by
  have hall : ∀ c ∈ token, decide (c ≠ sep ∧ c ≠ NUL) = true := fun c hc => decide_eq_true (htoken c hc)
  have hend : ¬ decide (d ≠ sep ∧ d ≠ NUL) = true := by
    rcases hd with rfl | rfl <;> simp
  have htake : (d :: rest).takeWhile (fun c => decide (c ≠ sep ∧ c ≠ NUL)) = [] := List.takeWhile_cons_of_neg hend
  have hdrop : (d :: rest).dropWhile (fun c => decide (c ≠ sep ∧ c ≠ NUL)) = d :: rest :=
    List.dropWhile_cons_of_neg hend
  simp only [strtok, hskip, List.takeWhile_append_of_pos hall, List.dropWhile_append_of_pos hall, htake, hdrop,
    List.append_nil, hne, ↓reduceIte]
  split
  · exact ⟨_, rfl⟩
  · exact ⟨_, rfl⟩

/-- One call on a text with its terminator: there are no tokens, or the first one is taken
off, with the separator behind it. -/
theorem strtok_spec (hsep : sep ≠ NUL) (hnul : NUL ∉ text) :
    tokens sep text = [] ∧
        (∃ before', strtok sep ⟨before, text ++ NUL :: behind⟩ = (none, ⟨before', NUL :: behind⟩)) ∨
    ∃ token text' before',
      strtok sep ⟨before, text ++ NUL :: behind⟩ = (some token, ⟨before', text' ++ NUL :: behind⟩) ∧
      tokens sep text = token :: tokens sep text' ∧ NUL ∉ text' ∧ text'.length < text.length ∧
      (text' = [] ∨ text'.length + 2 ≤ text.length) := by
  have hskip := skip_append hsep text behind
  have hsuffix := List.dropWhile_suffix (fun c => decide (c = sep)) (l := text)
  have htokens := tokens_skip sep text
  cases ht : text.dropWhile (· = sep) with
  | nil =>
    rw [ht] at htokens hskip
    have htake : (NUL :: behind).takeWhile (fun c => decide (c ≠ sep ∧ c ≠ NUL)) = [] :=
      List.takeWhile_cons_of_neg (by simp)
    exact .inl ⟨htokens.symm, _, by simp only [strtok, hskip, List.nil_append, htake, ↓reduceIte]; rfl⟩
  | cons c t =>
    have hc : c ≠ sep := by
      have := List.head?_dropWhile_not (fun c => decide (c = sep)) text
      rw [ht] at this
      simpa using this
    obtain ⟨token, rest, hsplit, hne, htoken, hrest⟩ := exists_token c t hc
    rw [ht, hsplit] at htokens hskip hsuffix
    rw [tokens_eq_cons token rest hne htoken hrest] at htokens
    have hnul' : NUL ∉ token ++ rest := fun h => hnul (hsuffix.subset h)
    rw [List.mem_append, not_or] at hnul'
    have hall : ∀ d ∈ token, d ≠ sep ∧ d ≠ NUL := fun d hd => ⟨fun h => htoken (h ▸ hd), fun h => hnul'.1 (h ▸ hd)⟩
    have hlength := hsuffix.length_le
    have hpos := List.length_pos_iff.mpr hne
    rw [List.length_append] at hlength
    right
    cases rest with
    | nil =>
      rw [List.append_nil] at hskip
      obtain ⟨before', hstrtok⟩ := @strtok_token _ before _ _ _ _ hskip hne hall (.inr rfl)
      rw [if_neg hsep.symm] at hstrtok
      have hshort : ([] : List Char).length < text.length := Nat.lt_of_lt_of_le hpos (by omega)
      exact ⟨token, [], before', hstrtok, htokens.symm, List.not_mem_nil, hshort, .inl rfl⟩
    | cons d rest =>
      obtain rfl : d = sep := hrest d rfl
      rw [List.append_assoc, List.cons_append] at hskip
      obtain ⟨before', hstrtok⟩ := @strtok_token _ before _ _ _ _ hskip hne hall (.inl rfl)
      rw [if_pos rfl] at hstrtok
      rw [List.length_cons] at hlength
      exact ⟨token, rest, before', hstrtok, htokens.symm, fun h => hnul'.2 (List.mem_cons_of_mem d h), by omega,
        .inr (by omega)⟩

/-- A token takes a character and its separator. -/
theorem length_tokens_le (hsep : sep ≠ NUL) (hnul : NUL ∉ text) : 2 * (tokens sep text).length ≤ text.length + 1 := by
  induction hlen : text.length using Nat.strong_induction_on generalizing text with
  | _ n ih =>
    rcases @strtok_spec sep text [] [] hsep hnul with
      ⟨hnone, -⟩ | ⟨token, text', before', -, htokens, hnul', hlt, hshort⟩
    · rw [hnone]
      exact Nat.zero_le _
    · have := ih text'.length (by omega) hnul' rfl
      rw [htokens, List.length_cons]
      rcases hshort with rfl | hshort
      · have hnone : tokens sep [] = [] := rfl
        rw [hnone, List.length_nil]
        omega
      · omega

/-! ## Loops -/

/-- **Loops over tokens.**  With fuel for every character, the loop is a fold. -/
theorem tokenLoop_eq (body : α → List Char → Except ε α) (hsep : sep ≠ NUL) (hnul : NUL ∉ text) (a : α) {fuel : Nat}
    (hfuel : text.length < fuel) :
    ∃ s text', tokenLoop sep body fuel (strtok sep ⟨before, text ++ NUL :: behind⟩).1 a
      (strtok sep ⟨before, text ++ NUL :: behind⟩).2 = some ((tokens sep text).foldlM body a, s) ∧
      s.rest = text' ++ NUL :: behind := by
  induction fuel generalizing text before a with
  | zero => omega
  | succ fuel ih =>
    rcases @strtok_spec sep text before behind hsep hnul with
      ⟨htokens, before', hnone⟩ | ⟨token, text', before', hsome, htokens, hnul', hlt, -⟩
    · rw [htokens, hnone]
      exact ⟨_, [], rfl, rfl⟩
    · rw [hsome, htokens, List.foldlM_cons]
      unfold tokenLoop
      cases hbody : body a token with
      | error e => exact ⟨_, text', rfl, rfl⟩
      | ok a' => exact ih hnul' a' (by omega)

/-- The buffer keeps its size. -/
theorem strtok_length (sep : Char) (s : Cut) : (strtok sep s).2.buf.length = s.buf.length := by
  have hskip := congrArg List.length (List.takeWhile_append_dropWhile (p := fun c => decide (c = sep)) (l := s.rest))
  have htoken := congrArg List.length (List.takeWhile_append_dropWhile (p := fun c => decide (c ≠ sep ∧ c ≠ NUL))
    (l := s.rest.dropWhile fun c => decide (c = sep)))
  rw [List.length_append] at hskip htoken
  unfold strtok
  dsimp only
  split
  · simp only [Cut.buf, List.length_append]
    omega
  split
  case h_1 hend =>
    rw [hend, List.length_nil] at htoken
    simp only [Cut.buf, List.length_append, List.length_nil]
    omega
  case h_2 c rest hend =>
    rw [hend, List.length_cons] at htoken
    split
    · simp only [Cut.buf, List.length_append, List.length_cons, List.length_nil]
      omega
    · simp only [Cut.buf, List.length_append, List.length_cons]
      omega

theorem tokenLoop_length {body : α → List Char → Except ε α} {fuel : Nat} {p : Option (List Char)} {a : α} {s s' : Cut}
    {r : Except ε α} (h : tokenLoop sep body fuel p a s = some (r, s')) : s'.buf.length = s.buf.length := by
  induction fuel generalizing p a s with
  | zero => cases h
  | succ fuel ih =>
    cases p with
    | none =>
      obtain ⟨-, rfl⟩ := Prod.mk.inj (Option.some.inj h)
      rfl
    | some p =>
      unfold tokenLoop at h
      cases hbody : body a p with
      | error e =>
        rw [hbody] at h
        obtain ⟨-, rfl⟩ := Prod.mk.inj (Option.some.inj h)
        rfl
      | ok a' =>
        rw [hbody] at h
        rw [ih h, strtok_length]

theorem forTokens_length {body : α → List Char → Except ε α} {a : α} {buf : List Char} {s : Cut} {r : Except ε α}
    (h : forTokens sep body a buf = some (r, s)) : s.buf.length = buf.length := by
  rw [tokenLoop_length h, strtok_length]
  rfl

/-- The loop over a text with its terminator; what is behind the terminator stays in its place. -/
theorem forTokens_behind (body : α → List Char → Except ε α) (hsep : sep ≠ NUL) (hnul : NUL ∉ text) (a : α)
    (behind : List Char) :
    ∃ s front, forTokens sep body a (text ++ NUL :: behind) = some ((tokens sep text).foldlM body a, s) ∧
      s.buf = front ++ NUL :: behind ∧ front.length = text.length := by
  obtain ⟨s, text', hloop, hrest⟩ := @tokenLoop_eq _ _ _ text [] behind body hsep hnul a
    ((text ++ NUL :: behind).length + 1) (by rw [List.length_append]; omega)
  refine ⟨s, s.before ++ text', hloop, ?_, ?_⟩
  · rw [Cut.buf, hrest, List.append_assoc]
  · have hlength := forTokens_length hloop
    rw [Cut.buf, hrest] at hlength
    simp only [List.length_append, List.length_cons] at hlength ⊢
    omega

theorem forTokens_eq (body : α → List Char → Except ε α) (hsep : sep ≠ NUL) (hnul : NUL ∉ text) (a : α) :
    ∃ s, forTokens sep body a (text ++ NUL :: behind) = some ((tokens sep text).foldlM body a, s) := by
  obtain ⟨s, front, hloop, -⟩ := forTokens_behind body hsep hnul a behind
  exact ⟨s, hloop⟩

end MochaHal.Strtok
