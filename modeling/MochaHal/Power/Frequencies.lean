import MochaHal.Lib.Strtok
import MochaHal.Power.Hints

/-! The table of CPU frequencies that `common_power_open` reads.  One buffer is read,
cut into tokens, read again and cut again; the line end is a token of its own, and the
count of the first pass leaves it out (`frequency_table`). -/

namespace MochaHal.Power

open MochaHal.Decimal MochaHal.Strtok

/-! ## Buffers and tokens -/

/-- A file of sysfs: what `read` gives, or the message of the error that stands in the
buffer instead. -/
inductive SysFile
  | content (text : List Char)
  | failed (message : List Char)

/-- A text that is written over the front of a buffer. -/
def overwrite (buf text : List Char) : List Char := text.take buf.length ++ buf.drop text.length

/-- `sysfs_read`.  What is read is not terminated, a message is. -/
def sysfsRead (file : SysFile) (buf : List Char) : List Char :=
  match file with
  | .content text => overwrite buf text
  | .failed message => overwrite buf (message.take (buf.length - 1) ++ [NUL])

/-- The body of the loop that counts. -/
def countToken (num : Int) (_ : List Char) : Except Empty Int := .ok (num + 1)

/-- The loop that stores, for so many tokens.  `atoi` of a null pointer does not return. -/
def storeTokens : Nat → Option (List Char) → Cut → List Int → Option (List Int × Cut)
  | 0, _, s, stored => some (stored, s)
  | _ + 1, none, _, _ => none
  | n + 1, some token, s, stored => storeTokens n (strtok ' ' s).1 (strtok ' ' s).2 (stored ++ [atoi token])

/-! ## The table -/

def SCALING_AVAILABLE_FREQUENCIES : String := "/sys/devices/system/cpu/cpu0/cpufreq/scaling_available_frequencies"

def IDLE_TOP_FREQ : String := "/sys/devices/system/cpu/cpuquiet/tegra_cpuquiet/idle_top_freq"

def SYS_NODE_CPU0_MAX_FREQ : String := "/sys/devices/system/cpu/cpu0/cpufreq/cpuinfo_max_freq"

/-- The frequencies of `struct powerhal_info`. -/
structure FrequencyInfo where
  available_frequencies : List Int
  num_available_frequencies : Int
  lp_max_frequency : Int
  interaction_boost_frequency : Int
  animation_boost_frequency : Int
  cpu0_max_frequency : Int
  deriving DecidableEq

/-- The first frequency from a limit on. -/
def boostFrequency (available_frequencies : List Int) (limit lp_max_frequency : Int) : Int :=
  (available_frequencies.find? fun f => limit ≤ f).getD lp_max_frequency

/-- What `common_power_open` sets when the table is there and the buffer is read again. -/
def setFrequencies (sysfs : Nat → String → SysFile) (available_frequencies : List Int)
    (num_available_frequencies : Int) (buf : List Char) : FrequencyInfo :=
  let buf := sysfsRead (sysfs 2 IDLE_TOP_FREQ) buf
  let lp_max_frequency := atoi buf
  { available_frequencies := available_frequencies
    num_available_frequencies := num_available_frequencies
    lp_max_frequency := lp_max_frequency
    interaction_boost_frequency := boostFrequency available_frequencies 1326000 lp_max_frequency
    animation_boost_frequency := boostFrequency available_frequencies 1024000 lp_max_frequency
    cpu0_max_frequency := atoi (sysfsRead (sysfs 3 SYS_NODE_CPU0_MAX_FREQ) buf) }

/-- What `common_power_open` reads, where `sysfs n` are the files at the `n`-th time. -/
def openFrequencies (sysfs : Nat → String → SysFile) : Option FrequencyInfo :=
  let size := 256
  let buf := sysfsRead (sysfs 0 SCALING_AVAILABLE_FREQUENCIES) (List.replicate size NUL)
  (forTokens ' ' countToken (-1) buf).bind fun counted =>
    match counted.1 with
    | .error e => e.elim
    | .ok num =>
      let buf := sysfsRead (sysfs 1 SCALING_AVAILABLE_FREQUENCIES) counted.2.buf
      let first := strtok ' ' ⟨[], buf⟩
      (storeTokens num.toNat first.1 first.2 []).map fun stored => setFrequencies sysfs stored.1 num stored.2.buf

/-- The entry of `available_frequencies` at an `int`. -/
def FrequencyInfo.frequencyAt (info : FrequencyInfo) (i : Int) : Option Int :=
  if 0 ≤ i then info.available_frequencies[i.toNat]? else none

/-- The request of `common_power_init`, if the entry it takes is in the table. -/
def initRequest (info : FrequencyInfo) : Option TimedRequest :=
  (info.frequencyAt (info.num_available_frequencies - 1)).map fun max_freq =>
    .constraint "/dev/constraint_cpu_freq" PM_QOS_BOOST_PRIORITY PM_QOS_DEFAULT_VALUE max_freq 15000

/-! ## Loops -/

theorem countToken_fold (ps : List (List Char)) (num : Int) : ps.foldlM countToken num = .ok (num + ps.length) := by
  induction ps generalizing num with
  | nil => simp [pure, Except.pure]
  | cons p ps ih =>
    have hstep : (p :: ps).foldlM countToken num = ps.foldlM countToken (num + 1) := rfl
    have hcount : num + 1 + (ps.length : Int) = num + ((p :: ps).length : Int) := by
      rw [List.length_cons]
      omega
    rw [hstep, ih, hcount]

/-- The first tokens of a text are stored as numbers. -/
theorem storeTokens_eq {text before behind : List Char} (hnul : NUL ∉ text) {n : Nat}
    (hn : n ≤ (tokens ' ' text).length) (stored : List Int) :
    ∃ s, storeTokens n (strtok ' ' ⟨before, text ++ NUL :: behind⟩).1
        (strtok ' ' ⟨before, text ++ NUL :: behind⟩).2 stored =
      some (stored ++ ((tokens ' ' text).take n).map atoi, s) ∧
      s.buf.length = (Cut.mk before (text ++ NUL :: behind)).buf.length := by
  induction n generalizing text before stored with
  | zero => exact ⟨_, by rw [storeTokens, List.take_zero, List.map_nil, List.append_nil], strtok_length _ _⟩
  | succ n ih =>
    rcases @strtok_spec ' ' text before behind (by decide) hnul with
      ⟨htokens, -⟩ | ⟨token, text', before', hsome, htokens, hnul', -⟩
    · rw [htokens] at hn
      cases hn
    · rw [htokens, List.length_cons] at hn
      obtain ⟨s, hrest, hlength⟩ := @ih text' before' hnul' (by omega) (stored ++ [atoi token])
      refine ⟨s, ?_, ?_⟩
      · rw [hsome, storeTokens, hrest, htokens, List.take_succ_cons, List.map_cons, List.append_assoc]
        rfl
      · have hkept := strtok_length ' ' ⟨before, text ++ NUL :: behind⟩
        rw [hsome] at hkept
        exact hlength.trans hkept

/-! ## What the kernel prints -/

section

variable {before : List Char} {f : Nat}

/-- The frequencies, each with a space behind it. -/
def frequencyFields (F : List Nat) : List Char := F.flatMap fun f => decimal f ++ [' ']

/-- The content of `scaling_available_frequencies`. -/
def frequencyText (F : List Nat) : List Char := frequencyFields F ++ ['\n']

theorem frequencyFields_cons (f : Nat) (F : List Nat) :
    frequencyFields (f :: F) = decimal f ++ ' ' :: frequencyFields F := by
  unfold frequencyFields
  rw [List.flatMap_cons, List.append_assoc]
  rfl

theorem decimal_ne {c : Char} (h : c ∈ decimal f) : c ≠ ' ' ∧ c ≠ NUL := by
  refine ⟨(isDigit_ne (decimal_isDigit h)).2.2.1, ?_⟩
  rintro rfl
  exact absurd (decimal_isDigit h) (by decide)

theorem frequencyText_nul (F : List Nat) : NUL ∉ frequencyText F := by
  intro hmem
  rcases List.mem_append.mp hmem with hmem | hmem
  · obtain ⟨f, -, hmem⟩ := List.mem_flatMap.mp hmem
    rcases List.mem_append.mp hmem with hmem | hmem
    · exact (decimal_ne hmem).2 rfl
    · exact absurd hmem (by decide)
  · exact absurd hmem (by decide)

/-- Its tokens: the frequencies and the line end. -/
theorem tokens_frequencyText (F : List Nat) : tokens ' ' (frequencyText F) = F.map decimal ++ [['\n']] := by
  induction F with
  | nil => decide
  | cons f F ih =>
    have htoken := @tokens_eq_cons ' ' (decimal f) (' ' :: frequencyText F) (decimal_ne_nil f)
      (fun h => (decimal_ne h).1 rfl) fun c hc => (Option.some.inj hc).symm
    have hsplit : frequencyText (f :: F) = decimal f ++ ' ' :: frequencyText F := by
      unfold frequencyText
      rw [frequencyFields_cons, List.append_assoc, List.cons_append]
    rw [hsplit, htoken, List.tail_cons, ih]
    rfl

theorem atoi_frequency (h : f < 2 ^ 31) : atoi (decimal f) = f := by
  have hends : Ends [] := fun c hc => (by cases hc)
  have := atoi_decimal hends (show (f : Int) ≤ INT_MAX by unfold INT_MAX; omega)
  rwa [List.append_nil] at this

/-! ## The table that is read -/

/-- A text over the front of a buffer that goes on with its end. -/
theorem overwrite_eq {text behind : List Char} (h : before.length = text.length) :
    overwrite (before ++ behind) text = text ++ behind := by
  unfold overwrite
  rw [List.take_of_length_le (by rw [List.length_append]; omega), ← h, List.drop_left]

/-- **The table.**  It holds the frequencies, and the buffer is as long as it was. -/
theorem openFrequencies_eq {sysfs : Nat → String → SysFile} {F : List Nat} (hF : ∀ g ∈ F, g < 2 ^ 31)
    (hlength : (frequencyText F).length < 256)
    (hfirst : sysfs 0 SCALING_AVAILABLE_FREQUENCIES = .content (frequencyText F))
    (hsecond : sysfs 1 SCALING_AVAILABLE_FREQUENCIES = .content (frequencyText F)) :
    ∃ buf : List Char, buf.length = 256 ∧
      openFrequencies sysfs = some (setFrequencies sysfs (F.map Int.ofNat) F.length buf) := by
  obtain ⟨more, hmore⟩ : ∃ more, 256 = (frequencyText F).length + (more + 1) :=
    ⟨255 - (frequencyText F).length, by omega⟩
  have hempty : List.replicate 256 NUL =
      List.replicate (frequencyText F).length NUL ++ NUL :: List.replicate more NUL := by
    rw [← List.replicate_succ, List.replicate_append_replicate, ← hmore]
  have hread {before : List Char} (h : before.length = (frequencyText F).length) :
      sysfsRead (.content (frequencyText F)) (before ++ NUL :: List.replicate more NUL) =
        frequencyText F ++ NUL :: List.replicate more NUL := overwrite_eq h
  have hnul := frequencyText_nul F
  have htokens := tokens_frequencyText F
  obtain ⟨counted, front, hcount, hfront, hkept⟩ :=
    @forTokens_behind _ _ ' ' _ countToken (by decide) hnul (-1) (List.replicate more NUL)
  obtain ⟨s, hstore, hsize⟩ := @storeTokens_eq _ [] (List.replicate more NUL) hnul F.length (by rw [htokens]; simp) []
  have hnum : -1 + ((tokens ' ' (frequencyText F)).length : Int) = F.length := by
    rw [htokens, List.length_append, List.length_map, List.length_singleton]
    omega
  have hvalues : ((tokens ' ' (frequencyText F)).take F.length).map atoi = F.map Int.ofNat := by
    rw [htokens, List.take_left' (List.length_map _), List.map_map]
    exact List.map_congr_left fun g hg => atoi_frequency (hF g hg)
  rw [countToken_fold, hnum] at hcount
  rw [hvalues, List.nil_append] at hstore
  refine ⟨s.buf, ?_, ?_⟩
  · rw [hsize, Cut.buf]
    simp only [List.nil_append, List.length_append, List.length_cons, List.length_replicate]
    omega
  · unfold openFrequencies
    dsimp only
    rw [hfirst, hsecond, hempty, hread List.length_replicate, hcount]
    dsimp only [Option.bind_some]
    rw [hfront, hread hkept, Int.toNat_natCast, hstore]
    rfl

theorem boostFrequency_map (F : List Nat) (limit : Nat) (lp_max_frequency : Int) :
    boostFrequency (F.map Int.ofNat) limit lp_max_frequency =
      ((F.find? fun f => limit ≤ f).map Int.ofNat).getD lp_max_frequency := by
  unfold boostFrequency
  rw [List.find?_map]
  congr 3
  funext f
  exact decide_eq_decide.mpr Int.ofNat_le

theorem atoi_sysfsRead {lp : Nat} (hlp : lp < 2 ^ 31) {buf : List Char} (hbuf : buf.length = 256) :
    atoi (sysfsRead (.content (decimal lp ++ ['\n'])) buf) = lp := by
  have hdigits : (decimal lp).length ≤ 10 := length_decimal_le (by decide) (by omega)
  have hends : Ends ('\n' :: buf.drop (decimal lp ++ ['\n']).length) := fun c hc => by
    rw [← Option.some.inj hc]
    rfl
  unfold sysfsRead overwrite
  dsimp only
  rw [List.take_of_length_le (by rw [List.length_append, List.length_singleton]; omega), List.append_assoc]
  exact atoi_decimal hends (by unfold INT_MAX; omega)

end

/-- The table, its last entry and the boosts. -/
theorem frequency_table (sysfs : Nat → String → SysFile) (F : List Nat) (hne : F ≠ []) (hF : ∀ f ∈ F, f < 2 ^ 31)
    (hlength : (frequencyText F).length < 256)
    (hfirst : sysfs 0 SCALING_AVAILABLE_FREQUENCIES = .content (frequencyText F))
    (hsecond : sysfs 1 SCALING_AVAILABLE_FREQUENCIES = .content (frequencyText F)) :
    ∃ info, openFrequencies sysfs = some info ∧ info.num_available_frequencies = F.length ∧
      info.available_frequencies = F.map Int.ofNat ∧
      info.frequencyAt (info.num_available_frequencies - 1) = some (F.getLast hne : Int) ∧
      initRequest info = some (.constraint "/dev/constraint_cpu_freq" PM_QOS_BOOST_PRIORITY PM_QOS_DEFAULT_VALUE
        (F.getLast hne) 15000) ∧
      info.interaction_boost_frequency =
        ((F.find? fun f => 1326000 ≤ f).map Int.ofNat).getD info.lp_max_frequency ∧
      info.animation_boost_frequency =
        ((F.find? fun f => 1024000 ≤ f).map Int.ofNat).getD info.lp_max_frequency ∧
      ∀ lp < 2 ^ 31, sysfs 2 IDLE_TOP_FREQ = .content (decimal lp ++ ['\n']) → info.lp_max_frequency = lp := by
  obtain ⟨buf, hbuf, hopen⟩ := openFrequencies_eq hF hlength hfirst hsecond
  have hpos := List.length_pos_iff.mpr hne
  have hlast : (setFrequencies sysfs (F.map Int.ofNat) F.length buf).frequencyAt (F.length - 1) =
      some (F.getLast hne : Int) := by
    unfold FrequencyInfo.frequencyAt setFrequencies
    dsimp only
    rw [if_pos (by omega), List.getElem?_map, show ((F.length : Int) - 1).toNat = F.length - 1 by omega,
      ← List.getLast?_eq_getElem?, List.getLast?_eq_some_getLast hne]
    rfl
  refine ⟨_, hopen, rfl, rfl, hlast, ?_, boostFrequency_map F 1326000 _, boostFrequency_map F 1024000 _,
    fun lp hlp hfile => ?_⟩
  · exact congrArg (Option.map _) hlast
  · show atoi (sysfsRead (sysfs 2 IDLE_TOP_FREQ) buf) = lp
    rw [hfile]
    exact atoi_sysfsRead hlp hbuf

/-- A table of four frequencies. -/
def fourFrequencies (read : Nat) (_ : String) : SysFile :=
  .content (if read < 2 then frequencyText [204000, 1122000, 1326000, 2218500] else decimal 1020000 ++ ['\n'])

theorem frequency_table_of_four :
    ∃ info, openFrequencies fourFrequencies = some info ∧ info.num_available_frequencies = 4 ∧
      info.frequencyAt 3 = some 2218500 ∧ info.interaction_boost_frequency = 1326000 ∧
      info.animation_boost_frequency = 1122000 ∧ info.lp_max_frequency = 1020000 := by
  obtain ⟨info, hopen, hnum, -, hlast, -, hinteraction, hanimation, hlp⟩ := frequency_table fourFrequencies
    [204000, 1122000, 1326000, 2218500] (List.cons_ne_nil _ _) (by decide) (by decide) rfl rfl
  refine ⟨info, hopen, hnum, ?_, hinteraction, hanimation, hlp 1020000 (by decide) rfl⟩
  rw [hnum] at hlast
  exact hlast

end MochaHal.Power
