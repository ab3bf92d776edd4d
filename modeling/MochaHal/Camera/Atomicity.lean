import MochaHal.Camera.Configure

/-! A failed `configure`.  The method stores the new configuration first and then
overwrites the rest bit by bit, so a failure leaves the pipeline as it was only in
the cases of `FailsCleanly`.  In runs without other failures the RGB buffer is
large enough for every frame that goes through the ISP (`configure_atomic`). -/

namespace MochaHal.Camera
open MochaHal.Prog MochaHal.Reach MochaHal.Demosaic

namespace CameraPipeline

/-- The mapping that slot `i` records. -/
def mapping (p : CameraPipeline) (i : Nat) : Option (Nat × BitVec 32) :=
  (p.mBuffers i).start.map fun a => (a, (p.mBuffers i).length)

/-- `q` has the configuration, the buffers and the ISP data of `p`. -/
structure Unchanged (p q : CameraPipeline) : Prop where
  config : q.mConfig = p.mConfig
  buffers : ∀ i, q.mapping i = p.mapping i
  count : q.mBufferCount = p.mBufferCount
  demosaic : q.mDemosaic.map (fun d => (d.mParams.width, d.mParams.height)) =
    p.mDemosaic.map fun d => (d.mParams.width, d.mParams.height)
  conv : q.mColorConv.map (fun c => (c.mWidth, c.mHeight)) =
    p.mColorConv.map fun c => (c.mWidth, c.mHeight)
  rgb : q.mRgbBuffer = p.mRgbBuffer
  rgbSize : q.mRgbBufferSize = p.mRgbBufferSize
  lut : q.mGammaLut = p.mGammaLut

/-- The slots written by a mapping loop that fails at slot `k`. -/
def Touched (env : KernelEnv) (k j : Nat) : Prop := j < k ∨ j = k ∧ ∃ lo, queried env k = .ok lo

/-- The call is refused while streaming, or it asks for the configuration that is there and
fails before any buffer is granted or in a mapping loop that found no buffers to lose. -/
def FailsCleanly (env : KernelEnv) (p : CameraPipeline) (config : PipelineConfig) : Prop :=
  p.mState = .streaming ∨ config = p.mConfig ∧ ∀ count ∈ granted env p config,
    p.mBufferCount = 0 ∧ ∃ k < count.toInt.toNat, (∀ j < k, (startAt env j).isSome) ∧
      startAt env k = none ∧ ∀ j, Touched env k j → (p.mBuffers j).start = none

/-- REQBUFS grants no more buffers than `mBuffers` has slots, and `mmap` answers an address that
is not in use. -/
structure KernelContract (env : KernelEnv) (p : CameraPipeline) : Prop where
  grants : ∀ n o, GrantsFit o (env n o)
  fresh : ∀ n length offset a, env n (.mmap length offset) = some a → ∀ i, (p.mBuffers i).start ≠ some a

section
variable {plat : Platform} {env : KernelEnv} {p : CameraPipeline} {config : PipelineConfig}

theorem mapping_failedSlots (env : KernelEnv) (p : CameraPipeline) (k j : Nat) :
    ((failedSlots env p k j).start.map fun a => (a, (failedSlots env p k j).length)) = none ∧
      Touched env k j ∨ failedSlots env p k j = p.mBuffers j ∧ ¬ Touched env k j := by
  unfold failedSlots Touched
  by_cases hlt : j < k
  · simp [hlt]
  · by_cases heq : j = k
    · subst heq
      cases hq : queried env j with
      | error e => simp
      | ok lo => simp
    · simp [hlt, heq]

theorem unchanged_refused_iff :
    Unchanged p { p with mConfig := config } ↔ config = p.mConfig := by
  constructor
  · exact fun h => h.config
  · rintro rfl
    exact ⟨rfl, fun _ => rfl, rfl, rfl, rfl, rfl, rfl, rfl⟩

theorem unchanged_unmapped_iff (k : Nat) :
    Unchanged p { p with mConfig := config, mBuffers := failedSlots env p k, mBufferCount := 0 } ↔
      config = p.mConfig ∧ p.mBufferCount = 0 ∧ ∀ j, Touched env k j → (p.mBuffers j).start = none := by
  constructor
  · intro h
    refine ⟨h.config, h.count.symm, fun j hj => ?_⟩
    rcases mapping_failedSlots env p k j with ⟨hnone, -⟩ | ⟨-, hnot⟩
    · have hp : p.mapping j = none := (h.buffers j).symm.trans hnone
      exact Option.map_eq_none_iff.mp hp
    · exact absurd hj hnot
  · rintro ⟨rfl, hcount, hslots⟩
    refine ⟨rfl, fun j => ?_, hcount.symm, rfl, rfl, rfl, rfl, rfl⟩
    rcases mapping_failedSlots env p k j with ⟨hnone, hj⟩ | ⟨hsame, -⟩
    · rw [mapping, hnone, mapping, hslots j hj]
      rfl
    · simp [mapping, hsame]

/-- The slot at which a mapping loop fails is the first one that cannot be mapped. -/
theorem first_unique {k k' : Nat} (hprev : ∀ j < k, (startAt env j).isSome) (hfail : startAt env k = none)
    (hprev' : ∀ j < k', (startAt env j).isSome) (hfail' : startAt env k' = none) : k = k' := by
  rcases Nat.lt_trichotomy k k' with hlt | heq | hgt
  · have := hprev' k hlt
    simp [hfail] at this
  · exact heq
  · have := hprev k' hgt
    simp [hfail'] at this

theorem failsCleanly_unmapped_iff (hs : p.mState ≠ .streaming) {count : BitVec 32}
    (hg : granted env p config = some count) {k : Nat} (hk : k < count.toInt.toNat)
    (hprev : ∀ j < k, (startAt env j).isSome) (hfail : startAt env k = none) :
    FailsCleanly env p config ↔ config = p.mConfig ∧ p.mBufferCount = 0 ∧
      ∀ j, Touched env k j → (p.mBuffers j).start = none := by
  constructor
  · rintro (hstream | ⟨hconfig, hgrant⟩)
    · exact absurd hstream hs
    · obtain ⟨hcount, k', -, hprev', hfail', hslots⟩ := hgrant count hg
      obtain rfl := first_unique hprev hfail hprev' hfail'
      exact ⟨hconfig, hcount, hslots⟩
  · rintro ⟨hconfig, hcount, hslots⟩
    refine .inr ⟨hconfig, fun count' hc => ?_⟩
    obtain rfl : count = count' := Option.some.inj (hg.symm.trans hc)
    exact ⟨hcount, k, hk, hprev, hfail, hslots⟩

/-- A loop that maps every slot is no clean failure. -/
theorem not_failsCleanly (hs : p.mState ≠ .streaming) {count : BitVec 32}
    (hg : granted env p config = some count)
    (hall : ∀ j < count.toInt.toNat, (startAt env j).isSome) : ¬ FailsCleanly env p config := by
  rintro (hstream | ⟨-, hgrant⟩)
  · exact hs hstream
  · obtain ⟨-, k, hk, -, hfail, -⟩ := hgrant count hg
    have := hall k hk
    simp [hfail] at this

/-- When the ISP does not start, the new buffers are already recorded. -/
theorem not_unchanged_noIsp (hk : KernelContract env p) {count : BitVec 32}
    (hg : granted env p config = some count)
    (hall : ∀ j < count.toInt.toNat, (startAt env j).isSome) (d : DemosaicNEON) :
    ¬ Unchanged p { mapped env p config count with mDemosaic := some d } := by
  intro h
  have hpos := (granted_fits hk.grants hg).1
  obtain ⟨a, ha⟩ := Option.isSome_iff_exists.mp (hall 0 hpos)
  have hnew : ({ mapped env p config count with mDemosaic := some d } : CameraPipeline).mapping 0 =
      some (a, lengthAt env 0) := by
    simp [mapping, mapped, mappedSlots, hpos, ha]
  have hold := (h.buffers 0).symm.trans hnew
  obtain ⟨b, hb, heq⟩ := Option.map_eq_some_iff.mp hold
  obtain rfl : b = a := congrArg Prod.fst heq
  unfold startAt at ha
  split at ha
  · exact hk.fresh _ _ _ _ ha 0 hb
  · cases ha

theorem unchanged_iff_failsCleanly (hk : KernelContract env p)
    (hret : (run env 0 (configure plat config p)).1 ≠ 0) :
    Unchanged p (run env 0 (configure plat config p)).2 ↔ FailsCleanly env p config := by
  have hexit : Exit plat env p config (run env 0 (configure plat config p)) := configure_exit
  generalize run env 0 (configure plat config p) = r at hexit hret
  cases hexit with
  | busy hs => exact ⟨fun _ => .inl hs, fun _ => ⟨rfl, fun _ => rfl, rfl, rfl, rfl, rfl, rfl, rfl⟩⟩
  | refused hs hg he =>
    rw [unchanged_refused_iff]
    constructor
    · exact fun h => .inr ⟨h, fun count hc => by simp [hg] at hc⟩
    · rintro (hstream | h)
      · exact absurd hstream hs
      · exact h.1
  | unmapped hs hg hk hprev hfail he =>
    rw [unchanged_unmapped_iff, failsCleanly_unmapped_iff hs hg hk hprev hfail]
  | noIsp hs hg hall hisp hfail d =>
    constructor
    · exact fun h => absurd h (not_unchanged_noIsp hk hg hall d)
    · exact fun h => absurd h (not_failsCleanly hs hg hall)
  | raw hs hg hall hisp => exact absurd rfl hret
  | done hs hg hall hisp hstart hd rgb => exact absurd rfl hret

end

/-! ## Runs -/

/-- Every call succeeds and the ISP, where it is on, gets its memory. -/
def Succeeds (env : KernelEnv) (p : CameraPipeline) (config : PipelineConfig) : Prop :=
  p.mState ≠ .streaming ∧ ∃ count ∈ granted env p config,
    (∀ j < count.toInt.toNat, (startAt env j).isSome) ∧
    (config.enableISP = true → IspStarts env config (2 + 2 * count.toInt.toNat))

/-- Grants fit `mBuffers`.  A `configure` that fails does so cleanly, and one that succeeds does
not wrap the size of the RGB buffer. -/
def AtomicStep (p : CameraPipeline) (step : PipelineCall × KernelEnv) : Prop :=
  (∀ n o, GrantsFit o (step.2 n o)) ∧ ∀ config, step.1 = .configure config →
    FailsCleanly step.2 p config ∨
      Succeeds step.2 p config ∧ (config.enableISP = true → 3 * config.pixels < 2 ^ 32)

/-- A picture of the configured size fits the RGB buffer. -/
def RgbFits (p : CameraPipeline) : Prop := 3 * p.mConfig.pixels ≤ p.mRgbBufferSize.toNat

section
variable {plat : Platform} {env : KernelEnv} {p : CameraPipeline} {config : PipelineConfig}

/-- The exit of a call that `AtomicStep` allows. -/
theorem atomicStep_fits (hok : AtomicStep p (.configure config, env))
    (hp : p.mBufferCount ≠ 0 → p.mConfig.enableISP = true → RgbFits p) {r : Int × CameraPipeline}
    (hexit : Exit plat env p config r) :
    r.2.mBufferCount ≠ 0 → r.2.mConfig.enableISP = true → RgbFits r.2 := by
  cases hexit with
  | busy hs => exact hp
  | refused hs hg he =>
    rcases hok.2 config rfl with (hstream | ⟨rfl, -⟩) | ⟨⟨-, count, hc, -⟩, -⟩
    · exact absurd hstream hs
    · exact hp
    · simp [hg] at hc
  | unmapped hs hg hk hprev hfail he => exact fun h0 => absurd rfl h0
  | noIsp hs hg hall hisp hfail d =>
    rcases hok.2 config rfl with hclean | ⟨⟨-, count, hc, -, hstart⟩, -⟩
    · exact absurd hclean (not_failsCleanly hs hg hall)
    · obtain rfl := Option.some.inj (hg.symm.trans hc)
      exact absurd (hstart hisp) hfail
  | raw hs hg hall hisp => exact fun _ h => absurd (hisp.symm.trans h) (by decide)
  | done hs hg hall hisp hstart hd rgb =>
    intro _ _
    rcases hok.2 config rfl with hclean | ⟨-, hsize⟩
    · exact absurd hclean (not_failsCleanly hs hg hall)
    · have hlt := hsize hisp
      have hrgb := rgbSize_toNat config
      show 3 * config.pixels ≤ (config.width * config.height * 3).toNat
      omega

theorem reached_fits (h : Reached plat AtomicStep p) :
    p.mBufferCount ≠ 0 → p.mConfig.enableISP = true → RgbFits p := by
  refine reached_view (R := fun p => p.mConfig.enableISP = true → RgbFits p) ?_ ?_ h
  · intro p q hview hp
    have hconfig : q.mConfig = p.mConfig := congrArg (fun v => v.1) hview
    have hsize : q.mRgbBufferSize = p.mRgbBufferSize := congrArg (fun v => v.2.2.1) hview
    rw [RgbFits, hconfig, hsize]
    exact hp
  · intro p config env hok hp
    exact atomicStep_fits hok hp configure_exit

end

/-- **Failed configurations.** -/
theorem configure_atomic (plat : Platform) :
    (∀ (p : CameraPipeline) (config : PipelineConfig) (env : KernelEnv), KernelContract env p →
      (run env 0 (configure plat config p)).1 ≠ 0 →
      (Unchanged p (run env 0 (configure plat config p)).2 ↔ FailsCleanly env p config)) ∧
    ∀ p, Reached plat AtomicStep p → IspRuns p → RgbFits p :=
  ⟨fun _ _ _ hk hret => unchanged_iff_failsCleanly hk hret,
    fun _ h hruns => reached_fits h hruns.count_ne_zero hruns.2.1⟩

/-- The pipeline after `open`. -/
def openedPipeline : CameraPipeline :=
  next flatPlatform (.new 0 smallConfig fun _ => 0) (.openDev 0, kernelGrants)

/-- The kernel of `kernelGrants`, but S_FMT fails. -/
def formatFails : KernelEnv := fun n o =>
  match o with
  | .setFormat _ _ _ => .error ⟨22, by decide⟩
  | o => kernelGrants n o

theorem formatFails_contract : KernelContract formatFails openedPipeline where
  grants := by
    intro n o
    cases o with
    | requestBuffers count memory => exact (by decide : (2 : BitVec 32) ≤ 4)
    | _ => trivial
  fresh := fun _ _ _ _ _ i h => by cases (h : none = some _)

theorem kernelGrants_succeeds : Succeeds kernelGrants openedPipeline smallConfig :=
  ⟨by decide, 2, rfl, fun _ _ => rfl, fun _ => ⟨by decide, by decide, rfl⟩⟩

theorem configure_atomic_small :
    Unchanged openedPipeline (run formatFails 0 (configure flatPlatform smallConfig openedPipeline)).2 ∧
      RgbFits configured := by
  obtain ⟨hcall, hrun⟩ := configure_atomic flatPlatform
  constructor
  · exact (hcall openedPipeline smallConfig formatFails formatFails_contract (by decide)).mpr
      (.inr ⟨rfl, fun count hc => by cases hc⟩)
  · refine hrun configured (.next (.next (.next (.start ⟨0, smallConfig, fun _ => 0, rfl⟩) ?_ rfl)
      (i := (.configure smallConfig, kernelGrants)) ?_ rfl) ?_ rfl)
      ⟨rfl, rfl, rfl, rfl, 0, by decide⟩
    · exact ⟨kernelGrants_fit, fun config h => by cases h⟩
    · refine ⟨kernelGrants_fit, ?_⟩
      rintro config h
      cases h
      exact .inr ⟨kernelGrants_succeeds, fun _ => by decide⟩
    · exact ⟨kernelGrants_fit, fun config h => by cases h⟩

def fourByFour : PipelineConfig := { smallConfig with width := 4, height := 4 }

/-- A 2 x 2 pipeline after a 4 x 4 configuration that S_FMT refused. -/
def misconfigured : CameraPipeline :=
  next flatPlatform (next flatPlatform openedPipeline (.configure smallConfig, kernelGrants))
    (.configure fourByFour, formatFails)

/-- The refused configuration is stored, and frames of its size go into the old RGB buffer. -/
theorem configure_not_atomic :
    (¬ ∀ (plat : Platform) (p : CameraPipeline) (config : PipelineConfig) (env : KernelEnv),
      KernelContract env p → (run env 0 (configure plat config p)).1 ≠ 0 →
      Unchanged p (run env 0 (configure plat config p)).2) ∧
    ¬ ∀ (plat : Platform) p, Reached plat (fun _ _ => True) p → IspRuns p → RgbFits p := by
  constructor
  · intro h
    have hsame := (h flatPlatform openedPipeline fourByFour formatFails formatFails_contract
      (by decide)).config
    have hwidth : (4 : BitVec 32) = 2 := congrArg (fun c => c.width) hsame
    exact absurd hwidth (by decide)
  · intro h
    have hreached : Reached flatPlatform (fun _ _ => True)
        (next flatPlatform misconfigured (.startStreaming, kernelGrants)) :=
      .next (.next (.next (.next (.start ⟨0, smallConfig, fun _ => 0, rfl⟩) trivial rfl) trivial rfl)
        trivial rfl) trivial rfl
    have hfits := h flatPlatform _ hreached ⟨rfl, rfl, rfl, rfl, 0, by decide⟩
    exact absurd hfits (by decide : ¬ 3 * 16 ≤ 12)

end CameraPipeline

end MochaHal.Camera
