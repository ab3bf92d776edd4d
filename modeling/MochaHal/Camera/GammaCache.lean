import MochaHal.Camera.Configure

/-! The cached gamma table.  `configure` rebuilds it when the gamma differs from the
one of the last table, which starts at 0 without a table, and only when it gets to
its end.  Whether a table was ever built is a matter of the run (`GammaRun`).
`gamma_cache_consistent` says that the RGBA branch uses the curve of the configuration
in every run whose `configure` calls meet `GammaStep`. -/

namespace MochaHal.Camera
open MochaHal.Prog MochaHal.Reach MochaHal.Demosaic

namespace CameraPipeline

/-! ## Runs -/

/-- A pipeline, and whether a gamma other than 0 was ever the one of its table. -/
structure GammaRun where
  pipeline : CameraPipeline
  rebuilt : Bool

def GammaRun.after (rebuilt : Bool) (p : CameraPipeline) : GammaRun :=
  ⟨p, rebuilt || decide (p.mLastGamma ≠ 0)⟩

def GammaRun.next (plat : Platform) (s : GammaRun) (step : PipelineCall × KernelEnv) : GammaRun :=
  .after s.rebuilt (CameraPipeline.next plat s.pipeline step)

abbrev GammaReached (plat : Platform) (ok : GammaRun → PipelineCall × KernelEnv → Prop) : GammaRun → Prop :=
  Reachable (fun s => ∃ id config lut, s = ⟨.new id config lut, false⟩) (fun s i s' => s' = s.next plat i) ok

/-- What a `configure` call that is not refused as busy must meet. -/
structure GammaStep (s : GammaRun) (config : PipelineConfig) (env : KernelEnv) : Prop where
  /-- A call that starts the ISP with a gamma of 0 comes after one with another gamma. -/
  built : ∀ count ∈ granted env s.pipeline config, (∀ j < count.toInt.toNat, (startAt env j).isSome) →
    config.enableISP = true → IspStarts env config (2 + 2 * count.toInt.toNat) →
    config.gamma = 0 → s.rebuilt = true
  /-- A call that is refused while there are buffers asks for the gamma that is configured. -/
  refused : granted env s.pipeline config = none → s.pipeline.mBufferCount ≠ 0 →
    config.gamma = s.pipeline.mConfig.gamma
  /-- A call that ends in the ISP block on an older colour conversion asks for the last gamma. -/
  noIsp : ∀ count ∈ granted env s.pipeline config, (∀ j < count.toInt.toNat, (startAt env j).isSome) →
    config.enableISP = true → ¬ IspStarts env config (2 + 2 * count.toInt.toNat) →
    s.pipeline.mColorConv.isSome → config.gamma = s.pipeline.mLastGamma

/-- The steps of a run with a consistent table; grants fit `mBuffers`. -/
def KeepsGamma (s : GammaRun) (step : PipelineCall × KernelEnv) : Prop :=
  (∀ n o, GrantsFit o (step.2 n o)) ∧ ∀ config, step.1 = .configure config →
    s.pipeline.mState ≠ .streaming → GammaStep s config step.2

/-- The table is the curve of the configuration. -/
def GammaCached (plat : Platform) (p : CameraPipeline) : Prop := p.mGammaLut = plat.lut p.mConfig.gamma

/-! ## The table over a run -/

/-- A table that was built is that of the last gamma, and there is no colour conversion
without one. -/
structure GammaInv (plat : Platform) (s : GammaRun) : Prop where
  table : s.rebuilt = true → s.pipeline.mGammaLut = plat.lut s.pipeline.mLastGamma
  start : s.rebuilt = false → s.pipeline.mLastGamma = 0
  conv : s.pipeline.mColorConv.isSome → s.rebuilt = true
  cached : s.pipeline.mBufferCount ≠ 0 → s.pipeline.mColorConv.isSome → GammaCached plat s.pipeline

/-- What only `configure` changes. -/
def curve (p : CameraPipeline) : (Nat → Byte) × Rat × Option ColorConv.ColorConvNEON :=
  (p.mGammaLut, p.mLastGamma, p.mColorConv)

theorem stopStreaming_curve : Keeps curve stopStreaming := by
  refine .bind keeps_get fun p => .ite (keeps_pure _) (.bind (keeps_ask _) fun _ => ?_)
  refine .bind keeps_get fun p => .bind ((unmapSlots_keeps _ _ 0).map curve) fun _ => ?_
  exact .bind (keeps_modify fun _ => rfl) fun _ => keeps_pure _

theorem close_curve : Keeps curve close := by
  refine .bind stopStreaming_curve fun _ => .bind keeps_get fun p => ?_
  refine .bind ((unmapSlots_keeps _ _ 0).map curve) fun _ => .bind (keeps_modify fun _ => rfl) fun _ => ?_
  exact closeTail_keeps.map curve

theorem exec_curve (plat : Platform) (c : PipelineCall) (hc : ∀ config, c ≠ .configure config) :
    Keeps curve (exec plat c) := by
  have hdrop {α : Type} {m : Pipe α} (hm : Keeps curve m) : Keeps curve (m >>= fun _ => pure ()) :=
    .bind hm fun _ => keeps_pure _
  cases c with
  | openDev cameraId => exact hdrop ((openDev_confined cameraId).keeps.map curve)
  | configure config => exact absurd rfl (hc config)
  | startStreaming => exact hdrop (startStreaming_confined.keeps.map curve)
  | stopStreaming => exact hdrop stopStreaming_curve
  | captureFrame out fmt => exact hdrop ((captureFrame_confined plat out fmt).keeps.map curve)
  | captureForAf => exact hdrop ((captureForAf_confined plat).keeps.map curve)
  | startAfScan => exact (startAfScan_confined plat).keeps.map curve
  | cancelAf => exact cancelAf_confined.keeps.map curve
  | getExposure => exact hdrop (getExposure_confined.keeps.map curve)
  | getGain => exact hdrop (getGain_confined.keeps.map curve)
  | close => exact hdrop close_curve

section
variable {plat : Platform} {env : KernelEnv} {p q : CameraPipeline} {config : PipelineConfig} {s : GammaRun}

/-- The gamma of the table tells whether a table was built, unless it is 0. -/
theorem GammaInv.rebuilt_eq (h : GammaInv plat s) :
    (s.rebuilt || decide (s.pipeline.mLastGamma ≠ 0)) = s.rebuilt := by
  cases hb : s.rebuilt with
  | true => rfl
  | false => simp [h.start hb]

/-- A step that leaves the table as it is. -/
theorem GammaInv.of_curve (h : GammaInv plat s) (hq : curve q = curve s.pipeline)
    (hcached : q.mBufferCount ≠ 0 → q.mColorConv.isSome → GammaCached plat q) :
    GammaInv plat (.after s.rebuilt q) := by
  have hlut : q.mGammaLut = s.pipeline.mGammaLut := congrArg (fun c => c.1) hq
  have hlast : q.mLastGamma = s.pipeline.mLastGamma := congrArg (fun c => c.2.1) hq
  have hconv : q.mColorConv = s.pipeline.mColorConv := congrArg (fun c => c.2.2) hq
  have hrebuilt : (GammaRun.after s.rebuilt q).rebuilt = s.rebuilt := by
    show (s.rebuilt || decide (q.mLastGamma ≠ 0)) = _
    rw [hlast]
    exact h.rebuilt_eq
  constructor
  · intro hb
    exact hlut.trans ((h.table (hrebuilt.symm.trans hb)).trans (congrArg plat.lut hlast.symm))
  · intro hb
    exact hlast.trans (h.start (hrebuilt.symm.trans hb))
  · intro hc
    exact hrebuilt.trans (h.conv (hconv ▸ hc))
  · exact hcached

/-- A step that gets to the end of `configure`. -/
theorem GammaInv.of_withGamma (h : GammaInv plat s)
    (hlut : q.mGammaLut = s.pipeline.mGammaLut) (hlast : q.mLastGamma = s.pipeline.mLastGamma)
    (hconfig : q.mConfig = config)
    (hconv : q.mColorConv.isSome → config.gamma = 0 → s.rebuilt = true) :
    GammaInv plat (.after s.rebuilt (q.withGamma plat config.gamma)) := by
  have htable : (GammaRun.after s.rebuilt (q.withGamma plat config.gamma)).rebuilt = true →
      (q.withGamma plat config.gamma).mGammaLut = plat.lut config.gamma := by
    intro hb
    show (if q.mLastGamma ≠ config.gamma then plat.lut config.gamma else q.mGammaLut) = _
    by_cases hne : q.mLastGamma ≠ config.gamma
    · rw [if_pos hne]
    · have hsame : s.pipeline.mLastGamma = config.gamma := hlast.symm.trans (not_not.mp hne)
      have hold : (s.rebuilt || decide (s.pipeline.mLastGamma ≠ 0)) = true := by
        rw [hsame]
        exact hb
      rw [if_neg hne, hlut, ← hsame]
      exact h.table (h.rebuilt_eq.symm.trans hold)
  have hdone : q.mColorConv.isSome →
      (GammaRun.after s.rebuilt (q.withGamma plat config.gamma)).rebuilt = true := by
    intro hc
    show (s.rebuilt || decide (config.gamma ≠ 0)) = true
    by_cases h0 : config.gamma = 0
    · rw [hconv hc h0]
      rfl
    · simp [h0]
  constructor
  · exact htable
  · intro hb
    have hb : (s.rebuilt || decide (config.gamma ≠ 0)) = false := hb
    exact not_not.mp (of_decide_eq_false (Bool.or_eq_false_iff.mp hb).2)
  · exact hdone
  · intro _ hc
    show (q.withGamma plat config.gamma).mGammaLut = plat.lut q.mConfig.gamma
    rw [hconfig]
    exact htable (hdone hc)

/-- The exits of a call that meets `GammaStep`. -/
theorem exit_inv (h : GammaInv plat s) (hok : s.pipeline.mState ≠ .streaming → GammaStep s config env)
    {r : Int × CameraPipeline} (hexit : Exit plat env s.pipeline config r) :
    GammaInv plat (.after s.rebuilt r.2) := by
  cases hexit with
  | busy hs => exact h.of_curve rfl h.cached
  | refused hs hg he =>
    refine h.of_curve rfl fun hcount hconv => ?_
    have hold : s.pipeline.mGammaLut = plat.lut s.pipeline.mConfig.gamma := h.cached hcount hconv
    rw [← (hok hs).refused hg hcount] at hold
    exact hold
  | unmapped hs hg hk hprev hfail he => exact h.of_curve rfl fun h0 => absurd rfl h0
  | noIsp hs hg hall hisp hfail d =>
    refine h.of_curve rfl fun _ hconv => ?_
    have hlast := (hok hs).noIsp _ hg hall hisp hfail hconv
    exact (h.table (h.conv hconv)).trans (congrArg plat.lut hlast.symm)
  | raw hs hg hall hisp => exact h.of_withGamma rfl rfl rfl fun hconv _ => h.conv hconv
  | done hs hg hall hisp hstart hd rgb =>
    exact h.of_withGamma rfl rfl rfl fun _ h0 => (hok hs).built _ hg hall hisp hstart h0

theorem reached_gammaInv (h : GammaReached plat KeepsGamma s) : GammaInv plat s := by
  refine h.invariant ?_ ?_
  · rintro s ⟨id, config, lut, rfl⟩
    exact ⟨fun hb => absurd hb Bool.false_ne_true, fun _ => rfl, fun hc => absurd hc Bool.false_ne_true,
      fun h0 => absurd rfl h0⟩
  · rintro s ⟨c, env⟩ s' hs hok rfl
    by_cases hc : ∃ config, c = .configure config
    · obtain ⟨config, rfl⟩ := hc
      rw [GammaRun.next, next_configure]
      exact exit_inv hs (hok.2 config rfl) configure_exit
    · have hne (config : PipelineConfig) : c ≠ .configure config := fun heq => hc ⟨config, heq⟩
      have hcurve : curve (CameraPipeline.next plat s.pipeline (c, env)) = curve s.pipeline :=
        run_of_post (exec_curve plat c hne s.pipeline) env 0
      have hview : ispView (CameraPipeline.next plat s.pipeline (c, env)) = ispView s.pipeline ∨
          (CameraPipeline.next plat s.pipeline (c, env)).mBufferCount = 0 :=
        run_of_post (exec_view c hne) env 0
      refine hs.of_curve hcurve fun hcount hconv => ?_
      rcases hview with hsame | hzero
      · have hconfig := congrArg (fun v => v.1) hsame
        have hn := congrArg (fun v => v.2.1) hsame
        have hconv' := congrArg (fun v => v.2.2.2.1) hsame
        have hlut := congrArg (fun v => v.2.2.2.2) hsame
        dsimp only [ispView] at hconfig hn hconv' hlut
        rw [GammaCached, hconfig, hlut]
        exact hs.cached (hn ▸ hcount) (hconv' ▸ hconv)
      · exact absurd hzero hcount

end

/-- **One gamma curve.**  The state is the one in which the branches of
`processBayerToYuv` read the table and the configuration. -/
theorem gamma_cache_consistent (plat : Platform) (s : GammaRun) (h : GammaReached plat KeepsGamma s)
    (hruns : IspRuns s.pipeline) (frame : Option Mem) (env : KernelEnv) (n : Nat) :
    GammaCached plat (run env n (demosaicFrame plat frame s.pipeline)).2 := by
  have hcached := (reached_gammaInv h).cached hruns.count_ne_zero hruns.2.2.2.1
  have hview : ispView (run env n (demosaicFrame plat frame s.pipeline)).2 = ispView s.pipeline :=
    run_of_post (keeps_ispView (demosaicFrame_keeps plat frame) s.pipeline) env n
  have hconfig := congrArg (fun v => v.1) hview
  have hlut := congrArg (fun v => v.2.2.2.2) hview
  dsimp only [ispView] at hconfig hlut
  rw [GammaCached, hconfig, hlut]
  exact hcached

/-- A platform on which every curve is constant, at its gamma. -/
def constantCurves : Platform := ⟨fun _ => 0, fun gamma _ => BitVec.ofInt 8 gamma.num⟩

/-- A pipeline of which the table holds 7s, opened, configured and started. -/
def startedWith (config : PipelineConfig) : CameraPipeline :=
  next constantCurves (next constantCurves (next constantCurves (.new 0 config fun _ => 7)
    (.openDev 0, kernelGrants)) (.configure config, kernelGrants)) (.startStreaming, kernelGrants)

/-- The run of `startedWith`. -/
def startedRun (config : PipelineConfig) : GammaRun :=
  ((GammaRun.next constantCurves ⟨.new 0 config fun _ => 7, false⟩
    (.openDev 0, kernelGrants)).next constantCurves (.configure config, kernelGrants)).next constantCurves
    (.startStreaming, kernelGrants)

theorem gamma_cache_consistent_small : GammaCached constantCurves
    (run kernelGrants 0 (demosaicFrame constantCurves none (startedRun smallConfig).pipeline)).2 := by
  apply gamma_cache_consistent constantCurves (startedRun smallConfig)
  · refine .next (.next (.next (.start ⟨0, smallConfig, fun _ => 7, rfl⟩) ?_ rfl)
      (i := (.configure smallConfig, kernelGrants)) ?_ rfl) ?_ rfl
    · exact ⟨kernelGrants_fit, fun config h => by cases h⟩
    · refine ⟨kernelGrants_fit, ?_⟩
      rintro config h -
      cases h
      refine ⟨fun _ _ _ _ _ h => ?_, fun h => ?_, fun _ _ _ _ _ h => ?_⟩
      · exact absurd h (by decide : point55 ≠ 0)
      · cases h
      · cases h
    · exact ⟨kernelGrants_fit, fun config h => by cases h⟩
  · exact ⟨rfl, rfl, rfl, rfl, 0, by decide⟩

/-- A first gamma of 0 counts as unchanged: the table is never built. -/
theorem gamma_zero_not_built : ¬ ∀ (plat : Platform) (p : CameraPipeline),
    Reached plat (fun _ _ => True) p → IspRuns p → GammaCached plat p := by
  intro h
  have hreached : Reached constantCurves (fun _ _ => True) (startedWith { smallConfig with gamma := 0 }) :=
    .next (.next (.next (.start ⟨0, { smallConfig with gamma := 0 }, fun _ => 7, rfl⟩) trivial rfl)
      trivial rfl) trivial rfl
  have hcached := h constantCurves _ hreached ⟨rfl, rfl, rfl, rfl, 0, by decide⟩
  have hentry : (7 : Byte) = 0 := congrFun hcached 0
  exact absurd hentry (by decide)

end CameraPipeline

end MochaHal.Camera
