import MochaHal.Camera.Streaming
import MochaHal.Isp.ColorConv

/-! The exits of `configure`.  `Exit` lists them with the state each one leaves, in
terms of the state before and of the kernel's answers: `configure_exit` is the one
place where the method is taken apart.

`configure_sizes_iff` says when the sizes that a successful call stores agree with
the configuration.  `reached_view` is the rule for what must hold of a pipeline
with buffers in every run: only `configure` has to be looked at. -/

namespace MochaHal.Camera
open MochaHal.Prog MochaHal.Reach MochaHal.Demosaic MochaHal.ColorConv

/-- The pixels of a picture, as a number that does not wrap. -/
def PipelineConfig.pixels (config : PipelineConfig) : Nat := config.width.toNat * config.height.toNat

namespace CameraPipeline

/-! ## The kernel's answers -/

section
variable (env : KernelEnv)

/-- The buffers that REQBUFS grants, when `configure` gets that far. -/
def granted (p : CameraPipeline) (config : PipelineConfig) : Option (BitVec 32) :=
  if p.mFd < 0 then none
  else match env 0 (.setFormat config.width config.height config.pixelFormat) with
    | .error _ => none
    | .ok _ => match env 1 (.requestBuffers 2 .mmap) with
      | .error _ => none
      | .ok count => if count < 2 then none else some count

/-- The answer to QUERYBUF for slot `i`. -/
def queried (i : Nat) : Except Errno (BitVec 32 × BitVec 32) := env (2 + 2 * i) (.queryBuf i .mmap)

def lengthAt (i : Nat) : BitVec 32 :=
  match queried env i with
  | .ok (length, _) => length
  | .error _ => 0

/-- Where slot `i` is mapped; `none` when QUERYBUF or mmap fails. -/
def startAt (i : Nat) : Option Nat :=
  match queried env i with
  | .ok (length, offset) => env (3 + 2 * i) (.mmap length offset)
  | .error _ => none

/-- The bytes that `DemosaicNEON::initialize` asks for. -/
def bayerBytes (config : PipelineConfig) : BitVec 32 :=
  BitVec.ofNat 32 ((config.width.setWidth 16).toNat * (config.height.setWidth 16).toNat + 80)

/-- The ISP objects accept the dimensions and get their memory, asked for in call `n`. -/
def IspStarts (config : PipelineConfig) (n : Nat) : Prop :=
  config.width.setWidth 16 ≠ (0 : BitVec 16) ∧ config.height.setWidth 16 ≠ (0 : BitVec 16) ∧
    (env n (.realloc (bayerBytes config))).isSome

/-- The slots once the first `n` are mapped. -/
def mappedSlots (p : CameraPipeline) (n : Nat) : Nat → V4l2Buffer := fun i =>
  if i < n then ⟨startAt env i, lengthAt env i, true⟩ else p.mBuffers i

/-- The slots after the mapping loop failed at slot `n`. -/
def failedSlots (p : CameraPipeline) (n : Nat) : Nat → V4l2Buffer := fun i =>
  if i < n then ⟨none, lengthAt env i, false⟩
  else if i = n then
    match queried env n with
    | .ok (length, _) => { p.mBuffers n with length := length, start := none }
    | .error _ => p.mBuffers n
  else p.mBuffers i

end

/-! ## The loops -/

section
variable {ok : (o : KernelOp) → o.Ans → Prop} {p : CameraPipeline}

def cleared (b : V4l2Buffer) : V4l2Buffer := { b with start := none, allocated := false }

/-- The slots after those of `i, ..., i+n-1` that are in `drop` were cleared. -/
def clearedSlots (drop : V4l2Buffer → Bool) (n i : Nat) (slots : Nat → V4l2Buffer) : Nat → V4l2Buffer :=
  fun j => if i ≤ j ∧ j < i + n ∧ drop (slots j) then cleared (slots j) else slots j

theorem clearedSlots_one (drop : V4l2Buffer → Bool) (i : Nat) (slots : Nat → V4l2Buffer) :
    clearedSlots drop 1 i slots =
      Function.update slots i (if drop (slots i) then cleared (slots i) else slots i) := by
  funext j
  unfold clearedSlots
  by_cases hj : j = i
  · subst hj
    simp
  · rw [Function.update_of_ne hj, if_neg (by omega)]

theorem clearedSlots_succ (drop : V4l2Buffer → Bool) (n i : Nat) (slots : Nat → V4l2Buffer) :
    clearedSlots drop n (i + 1) (clearedSlots drop 1 i slots) = clearedSlots drop (n + 1) i slots := by
  funext j
  rw [clearedSlots_one]
  unfold clearedSlots
  by_cases hj : j = i
  · subst hj
    simp
  · have hiff : (i + 1 ≤ j ∧ j < i + 1 + n) ↔ (i ≤ j ∧ j < i + (n + 1)) := by omega
    simp only [← and_assoc, hiff, Function.update_of_ne hj]

theorem unmapSlots_post (drop : V4l2Buffer → Bool) (n i : Nat) :
    Post ok (fun r => r.2 = { p with mBuffers := clearedSlots drop n i p.mBuffers })
      (unmapSlots drop n i p) := by
  induction n generalizing i p with
  | zero =>
    have hnone : clearedSlots drop 0 i p.mBuffers = p.mBuffers := by
      funext j
      exact if_neg (by omega)
    rw [hnone]
    rfl
  | succ n ih =>
    unfold unmapSlots
    rw [post_stateBind, post_get, post_stateBind]
    have hclear : Post ok (fun r => r.2 = { p with mBuffers := clearedSlots drop 1 i p.mBuffers })
        ((onlyIf (drop (p.mBuffers i)) do
          munmapStart (p.mBuffers i)
          setBuffer i fun b => { b with start := none, allocated := false } : Pipe Unit) p) := by
      refine post_stateIte (fun hdrop => ?_) fun hdrop => ?_
      · have hk : Keeps id (munmapStart (p.mBuffers i)) := by
          unfold munmapStart
          split
          · exact .bind (keeps_ask _) fun _ => keeps_pure _
          · exact keeps_pure _
        rw [post_stateBind]
        refine hk.post fun r hr => ?_
        obtain rfl : r.2 = p := hr
        rw [post_setBuffer, clearedSlots_one, if_pos hdrop]
        rfl
      · rw [clearedSlots_one, if_neg hdrop, Function.update_eq_self]
        rfl
    refine hclear.mono fun r hr => ?_
    refine (ih (i + 1)).mono fun q hq => ?_
    rw [hq, hr, clearedSlots_succ]

theorem unmapAll_run (env : KernelEnv) (m i : Nat) : run env m (unmapAll i p) =
    ((), { p with mBuffers := clearedSlots (fun _ => true) i 0 p.mBuffers, mBufferCount := 0 }) := by
  have hpost : Post (fun _ _ => True) (fun r => r = ((), { p with
      mBuffers := clearedSlots (fun _ => true) i 0 p.mBuffers, mBufferCount := 0 })) (unmapAll i p) := by
    unfold unmapAll
    rw [post_stateBind]
    refine (unmapSlots_post _ i 0).mono fun r hr => ?_
    rw [post_modify, hr]
  exact run_of_post hpost env m

end

section
variable {env : KernelEnv} {p : CameraPipeline}

theorem mappedSlots_zero : mappedSlots env p 0 = p.mBuffers := by
  funext j
  exact if_neg (by omega)

theorem mappedSlots_succ {i a : Nat} (ha : startAt env i = some a) :
    Function.update (mappedSlots env p i) i ⟨some a, lengthAt env i, true⟩ =
      mappedSlots env p (i + 1) := by
  funext j
  by_cases hj : j = i
  · subst hj
    simp [mappedSlots, ha]
  · have hiff : j < i + 1 ↔ j < i := by omega
    simp [mappedSlots, hj, hiff]

/-- A slot that can be mapped takes the loop to the next one. -/
theorem mapBuffers_next (n : Nat) {i a : Nat} (ha : startAt env i = some a) :
    outcome env (2 + 2 * i) (mapBuffers (n + 1) i { p with mBuffers := mappedSlots env p i }) =
      outcome env (2 + 2 * (i + 1))
        (mapBuffers n (i + 1) { p with mBuffers := mappedSlots env p (i + 1) }) := by
  cases hq : queried env i with
  | error e => simp [startAt, hq] at ha
  | ok lo =>
    obtain ⟨length, offset⟩ := lo
    have hmap : env (3 + 2 * i) (.mmap length offset) = some a := by simpa [startAt, hq] using ha
    have hlen : lengthAt env i = length := by simp [lengthAt, hq]
    have hq : env (2 + 2 * i) (.queryBuf i .mmap) = .ok (length, offset) := hq
    rw [← mappedSlots_succ ha, hlen, mapBuffers, outcome_askBind, hq]
    dsimp only
    rw [setBuffer, outcome_modifyBind, outcome_askBind, show 2 + 2 * i + 1 = 3 + 2 * i by omega, hmap]
    dsimp only
    rw [setBuffer, outcome_modifyBind, show 3 + 2 * i + 1 = 2 + 2 * (i + 1) by omega]
    simp

theorem mapBuffers_all (n : Nat) {i : Nat} (h : ∀ j, i ≤ j → j < i + n → (startAt env j).isSome) :
    outcome env (2 + 2 * i) (mapBuffers n i { p with mBuffers := mappedSlots env p i }) =
      ((0, { p with mBuffers := mappedSlots env p (i + n) }), 2 + 2 * (i + n)) := by
  induction n generalizing i with
  | zero => rfl
  | succ n ih =>
    obtain ⟨a, ha⟩ := Option.isSome_iff_exists.mp (h i (by omega) (by omega))
    rw [mapBuffers_next n ha, ih fun j hj hj' => h j (by omega) (by omega)]
    rw [show i + 1 + n = i + (n + 1) by omega]

theorem failedSlots_query {i : Nat} {e : Errno} (hq : queried env i = .error e) :
    clearedSlots (fun _ => true) i 0 (mappedSlots env p i) = failedSlots env p i := by
  funext j
  unfold clearedSlots mappedSlots failedSlots
  by_cases hj : j < i
  · simp [hj, cleared]
  · by_cases heq : j = i
    · subst heq
      simp [hq]
    · simp [hj, heq]

theorem failedSlots_mmap {i : Nat} {length offset : BitVec 32} (hq : queried env i = .ok (length, offset)) :
    clearedSlots (fun _ => true) i 0 (Function.update (mappedSlots env p i) i
      { p.mBuffers i with length := length, start := none }) = failedSlots env p i := by
  funext j
  unfold clearedSlots mappedSlots failedSlots
  by_cases hj : j < i
  · simp [hj, cleared, Nat.ne_of_lt hj]
  · by_cases heq : j = i
    · subst heq
      simp [hq]
    · simp [hj, heq]

/-- The loop at the slot that cannot be mapped. -/
theorem mapBuffers_stop (n : Nat) {i : Nat} (h : startAt env i = none) : ∃ e, e ≠ 0 ∧
    run env (2 + 2 * i) (mapBuffers (n + 1) i { p with mBuffers := mappedSlots env p i }) =
      (e, { p with mBuffers := failedSlots env p i, mBufferCount := 0 }) := by
  cases hq : queried env i with
  | error e =>
    have hq' : env (2 + 2 * i) (.queryBuf i .mmap) = .error e := hq
    have hpos := e.property
    refine ⟨-e.val, by omega, ?_⟩
    rw [mapBuffers, run_askBind, hq']
    dsimp only
    rw [run_stateBind, unmapAll_run, failedSlots_query hq]
    rfl
  | ok lo =>
    obtain ⟨length, offset⟩ := lo
    have hq' : env (2 + 2 * i) (.queryBuf i .mmap) = .ok (length, offset) := hq
    have hmap : env (3 + 2 * i) (.mmap length offset) = none := by simpa [startAt, hq] using h
    have hslot : mappedSlots env p i i = p.mBuffers i := if_neg (by omega)
    refine ⟨-ENOMEM, by decide, ?_⟩
    rw [mapBuffers, run_askBind, hq']
    dsimp only
    rw [setBuffer, run_modifyBind, run_askBind, show 2 + 2 * i + 1 = 3 + 2 * i by omega, hmap]
    dsimp only
    rw [setBuffer, run_modifyBind, run_stateBind, unmapAll_run]
    simp only [Function.update_self, Function.update_idem, hslot, failedSlots_mmap hq]
    rfl

theorem mapBuffers_fails (n : Nat) {i k : Nat} (hik : i ≤ k) (hk : k < i + n)
    (h : ∀ j, i ≤ j → j < k → (startAt env j).isSome) (hfail : startAt env k = none) : ∃ e, e ≠ 0 ∧
    run env (2 + 2 * i) (mapBuffers n i { p with mBuffers := mappedSlots env p i }) =
      (e, { p with mBuffers := failedSlots env p k, mBufferCount := 0 }) := by
  induction n generalizing i with
  | zero => omega
  | succ n ih =>
    by_cases heq : i = k
    · subst heq
      exact mapBuffers_stop n hfail
    · obtain ⟨a, ha⟩ := Option.isSome_iff_exists.mp (h i (by omega) (by omega))
      have hnext := congrArg Prod.fst (mapBuffers_next (p := p) n ha)
      obtain ⟨e, he, hrun⟩ := ih (i := i + 1) (by omega) (by omega) fun j hj hj' => h j (by omega) hj'
      exact ⟨e, he, hnext.trans hrun⟩

end

/-! ## Exits -/

/-- `rebuildGammaLut` as a function. -/
def withGamma (plat : Platform) (gamma : Rat) (p : CameraPipeline) : CameraPipeline :=
  { p with
    mHasAwbInit := false
    mGammaLut := if p.mLastGamma ≠ gamma then plat.lut gamma else p.mGammaLut
    mLastGamma := gamma }

/-- The pipeline once its buffers are mapped. -/
def mapped (env : KernelEnv) (p : CameraPipeline) (config : PipelineConfig) (count : BitVec 32) :
    CameraPipeline :=
  { p with
    mConfig := config
    mBufferCount := count.toInt
    mBuffers := mappedSlots env p count.toInt.toNat }

/-- The ISP objects for `config`. -/
def withIsp (p : CameraPipeline) (config : PipelineConfig) (d : DemosaicNEON) (rgb : Mem) : CameraPipeline :=
  { p with
    mDemosaic := some d
    mColorConv := some ⟨config.width.setWidth 16, config.height.setWidth 16, true⟩
    mRgbBuffer := some rgb
    mRgbBufferSize := config.width * config.height * 3 }

/-- How `configure` returns: the value and the state it leaves. -/
inductive Exit (plat : Platform) (env : KernelEnv) (p : CameraPipeline) (config : PipelineConfig) :
    Int × CameraPipeline → Prop
  | busy (hs : p.mState = .streaming) : Exit plat env p config (-EBUSY, p)
  | refused (hs : p.mState ≠ .streaming) (hg : granted env p config = none) {e : Int} (he : e ≠ 0) :
      Exit plat env p config (e, { p with mConfig := config })
  | unmapped (hs : p.mState ≠ .streaming) {count : BitVec 32} (hg : granted env p config = some count)
      {k : Nat} (hk : k < count.toInt.toNat) (hprev : ∀ j < k, (startAt env j).isSome)
      (hfail : startAt env k = none) {e : Int} (he : e ≠ 0) :
      Exit plat env p config
        (e, { p with mConfig := config, mBuffers := failedSlots env p k, mBufferCount := 0 })
  | noIsp (hs : p.mState ≠ .streaming) {count : BitVec 32} (hg : granted env p config = some count)
      (hall : ∀ j < count.toInt.toNat, (startAt env j).isSome) (hisp : config.enableISP = true)
      (hfail : ¬ IspStarts env config (2 + 2 * count.toInt.toNat)) (d : DemosaicNEON) :
      Exit plat env p config (-1, { mapped env p config count with mDemosaic := some d })
  | raw (hs : p.mState ≠ .streaming) {count : BitVec 32} (hg : granted env p config = some count)
      (hall : ∀ j < count.toInt.toNat, (startAt env j).isSome) (hisp : config.enableISP = false) :
      Exit plat env p config (0, (mapped env p config count).withGamma plat config.gamma)
  | done (hs : p.mState ≠ .streaming) {count : BitVec 32} (hg : granted env p config = some count)
      (hall : ∀ j < count.toInt.toNat, (startAt env j).isSome) (hisp : config.enableISP = true)
      (hstart : IspStarts env config (2 + 2 * count.toInt.toNat)) {d : DemosaicNEON}
      (hd : d.mParams = demosaicParams config) (rgb : Mem) :
      Exit plat env p config
        (0, ((mapped env p config count).withIsp config d rgb).withGamma plat config.gamma)

section
variable {plat : Platform} {env : KernelEnv} {p : CameraPipeline} {config : PipelineConfig}
  {ok : (o : KernelOp) → o.Ans → Prop}

/-- A new object takes its parameters when they are not empty and there is memory. -/
theorem initialize_new (params : DemosaicParams) (buf : Option Mem) :
    let r := DemosaicNEON.initialize ⟨⟨0, 0, 0, 0, 0, 0⟩, false, none, 0⟩ params buf
    if params.width ≠ 0 ∧ params.height ≠ 0 ∧ buf.isSome then r.1 = 0 ∧ r.2.mParams = params
    else r.1 = -1 := by
  have hneeded : (0 : BitVec 32) < BitVec.ofNat 32 (params.width.toNat * params.height.toNat + 16) := by
    have hw : params.width.toNat ≤ 65535 := by omega
    have hh : params.height.toNat ≤ 65535 := by omega
    have := Nat.mul_le_mul hw hh
    rw [BitVec.lt_def, BitVec.toNat_ofNat, Nat.mod_eq_of_lt (by omega)]
    simp
  unfold DemosaicNEON.initialize
  by_cases hz : params.width = 0 ∨ params.height = 0
  · have hpos : ¬ (params.width ≠ 0 ∧ params.height ≠ 0 ∧ buf.isSome) :=
      fun h => hz.elim h.1 h.2.1
    rw [if_neg hpos, if_pos hz]
  · obtain ⟨hw, hh⟩ := not_or.mp hz
    rw [if_neg hz]
    dsimp only
    rw [if_pos hneeded]
    cases buf with
    | none => simp
    | some m =>
      rw [if_pos ⟨hw, hh, rfl⟩]
      exact ⟨rfl, rfl⟩

theorem rebuildGammaLut_post (gamma : Rat) :
    Post ok (fun r => r.2 = p.withGamma plat gamma) (rebuildGammaLut plat gamma p) := by
  unfold rebuildGammaLut
  rw [post_stateBind, post_modify, post_stateBind, post_get]
  refine post_stateIte (fun hne => ?_) fun heq => ?_
  · have hne : p.mLastGamma ≠ gamma := hne
    rw [post_modify, withGamma, if_pos hne]
  · have heq : p.mLastGamma = gamma := not_not.mp heq
    rw [withGamma, if_neg (not_not.mpr heq), ← heq]
    rfl

/-- The ISP block, started in call `n`. -/
theorem initIsp_run (n : Nat) :
    (IspStarts env config n ∧ ∃ d rgb, d.mParams = demosaicParams config ∧
      run env n (initIsp config p) = (0, p.withIsp config d rgb)) ∨
    (¬ IspStarts env config n ∧ ∃ d, run env n (initIsp config p) =
      (-1, { p with mDemosaic := some d })) := by
  have hrealloc : ∃ buf, run env n (reallocBayer (demosaicParams config) p) = (buf, p) ∧
      (IspStarts env config n ↔ (demosaicParams config).width ≠ 0 ∧
        (demosaicParams config).height ≠ 0 ∧ buf.isSome) := by
    unfold reallocBayer
    by_cases hz : (demosaicParams config).width = 0 ∨ (demosaicParams config).height = 0
    · rw [if_pos hz]
      exact ⟨none, rfl, fun h => absurd hz (not_or.mpr ⟨h.1, h.2.1⟩), fun h => by simp at h⟩
    · rw [if_neg hz]
      exact ⟨_, rfl, Iff.rfl⟩
  obtain ⟨buf, hbuf, hiff⟩ := hrealloc
  have hinit := initialize_new (demosaicParams config) buf
  unfold initIsp
  rw [run_stateBind, hbuf]
  by_cases hstart : IspStarts env config n
  · rw [if_pos (hiff.mp hstart)] at hinit
    have hconv : ColorConvNEON.new.initialize (config.width.setWidth 16) (config.height.setWidth 16) =
        (0, ⟨config.width.setWidth 16, config.height.setWidth 16, true⟩) :=
      if_neg (not_or.mpr ⟨hstart.1, hstart.2.1⟩)
    refine .inl ⟨hstart, _, env (after env n (reallocBayer (demosaicParams config) p))
      (.newArray (config.width * config.height * 3)), hinit.2, ?_⟩
    dsimp only
    rw [run_modifyBind, if_neg (not_not.mpr hinit.1), run_modifyBind, hconv]
    rfl
  · rw [if_neg (fun h => hstart (hiff.mpr h))] at hinit
    refine .inr ⟨hstart, ( DemosaicNEON.initialize ⟨⟨0, 0, 0, 0, 0, 0⟩, false, none, 0⟩
      (demosaicParams config) buf).2, ?_⟩
    dsimp only
    rw [run_modifyBind, hinit]
    rfl

/-- `configure` on mapped buffers. -/
theorem finishConfigure_exit (hs : p.mState ≠ .streaming) {count : BitVec 32}
    (hg : granted env p config = some count)
    (hall : ∀ j < count.toInt.toNat, (startAt env j).isSome) :
    Exit plat env p config (run env (2 + 2 * count.toInt.toNat)
      (finishConfigure plat config (mapped env p config count))) := by
  have hgamma (n : Nat) (q : CameraPipeline) :
      (run env n (rebuildGammaLut plat config.gamma q)).2 = q.withGamma plat config.gamma :=
    run_of_post (rebuildGammaLut_post config.gamma) env n
  unfold finishConfigure
  by_cases hisp : config.enableISP = true
  · rw [if_pos hisp, run_stateBind]
    rcases @initIsp_run env (mapped env p config count) config (2 + 2 * count.toInt.toNat) with
      ⟨hstart, d, rgb, hd, hrun⟩ | ⟨hfail, d, hrun⟩
    · rw [hrun, if_neg (not_not.mpr rfl), run_stateBind]
      dsimp only
      rw [hgamma]
      exact .done hs hg hall hisp hstart hd rgb
    · rw [hrun]
      exact .noIsp hs hg hall hisp hfail d
  · rw [if_neg hisp, run_stateBind, hgamma]
    exact .raw hs hg hall (by simpa using hisp)

/-- `configure` once REQBUFS has granted the buffers. -/
theorem granted_exit (hs : p.mState ≠ .streaming) {count : BitVec 32}
    (hg : granted env p config = some count) :
    Exit plat env p config (run env 2 ((mapBuffers count.toInt.toNat 0 >>= fun ret =>
      if ret ≠ 0 then return ret else finishConfigure plat config : Pipe Int)
      { p with mConfig := config, mBufferCount := count.toInt })) := by
  rw [run_stateBind]
  generalize hp' : ({ p with mConfig := config, mBufferCount := count.toInt } : CameraPipeline) = p'
  have hslots : ({ p' with mBuffers := mappedSlots env p' 0 } : CameraPipeline) = p' := by
    rw [mappedSlots_zero]
  by_cases hall : ∀ j < count.toInt.toNat, (startAt env j).isSome
  · have hrun : outcome env (2 + 2 * 0) (mapBuffers count.toInt.toNat 0
        { p' with mBuffers := mappedSlots env p' 0 }) = _ :=
      mapBuffers_all count.toInt.toNat fun j _ hj => hall j (by omega)
    rw [hslots, Nat.zero_add] at hrun
    have hval : run env 2 (mapBuffers count.toInt.toNat 0 p') = (0, mapped env p config count) := by
      subst hp'
      exact congrArg Prod.fst hrun
    have hafter : after env 2 (mapBuffers count.toInt.toNat 0 p') = 2 + 2 * count.toInt.toNat :=
      congrArg Prod.snd hrun
    rw [hval, hafter]
    exact finishConfigure_exit hs hg hall
  · have hex : ∃ k, k < count.toInt.toNat ∧ startAt env k = none := by
      simpa using hall
    classical
    obtain ⟨hk, hfail⟩ := Nat.find_spec hex
    have hprev : ∀ j < Nat.find hex, (startAt env j).isSome := by
      intro j hj
      have := Nat.find_min hex hj
      rw [Option.isSome_iff_ne_none]
      exact fun hnone => this ⟨by omega, hnone⟩
    obtain ⟨e, he, hrun⟩ : ∃ e, e ≠ 0 ∧ run env (2 + 2 * 0) (mapBuffers count.toInt.toNat 0
        { p' with mBuffers := mappedSlots env p' 0 }) = _ :=
      mapBuffers_fails count.toInt.toNat (Nat.zero_le _) (by omega) (fun j _ hj => hprev j hj) hfail
    rw [hslots] at hrun
    have hval : run env 2 (mapBuffers count.toInt.toNat 0 p') = _ := hrun
    rw [hval]
    simp only [he, ne_eq, not_false_eq_true, if_true]
    subst hp'
    exact .unmapped hs hg hk hprev hfail he

/-- **What `configure` can do.** -/
theorem configure_exit : Exit plat env p config (run env 0 (configure plat config p)) := by
  unfold configure
  rw [run_getBind]
  by_cases hs : p.mState = .streaming
  · rw [if_pos hs]
    exact .busy hs
  · rw [if_neg hs, run_modifyBind, run_getBind]
    by_cases hfd : p.mFd < 0
    · rw [if_pos hfd]
      exact .refused hs (if_pos hfd) (by decide)
    · rw [if_neg hfd, run_askBind]
      cases hfmt : env 0 (.setFormat config.width config.height config.pixelFormat) with
      | error e =>
        have hpos := e.property
        exact .refused hs (by simp only [granted, if_neg hfd, hfmt]) (by omega)
      | ok _ =>
        dsimp only
        rw [run_askBind]
        cases hreq : env 1 (.requestBuffers 2 .mmap) with
        | error e =>
          have hpos := e.property
          exact .refused hs (by simp only [granted, if_neg hfd, hfmt, hreq]) (by omega)
        | ok count =>
          dsimp only
          by_cases hn : count < 2
          · rw [if_pos hn]
            exact .refused hs (by simp only [granted, if_neg hfd, hfmt, hreq, if_pos hn]) (by decide)
          · rw [if_neg hn, run_modifyBind]
            exact granted_exit hs (by simp only [granted, if_neg hfd, hfmt, hreq, if_neg hn])

end

/-! ## Sizes -/

/-- The stored sizes are those of the configuration.  Every mapped buffer is in one of the
four slots, and a frame fits it. -/
structure SizesAgree (config : PipelineConfig) (q : CameraPipeline) : Prop where
  rgb : q.mRgbBufferSize.toNat = 3 * config.pixels
  demosaic : ∃ d ∈ q.mDemosaic, d.mParams.width.toNat = config.width.toNat ∧
    d.mParams.height.toNat = config.height.toNat
  conv : ∃ c ∈ q.mColorConv, c.mWidth.toNat = config.width.toNat ∧
    c.mHeight.toNat = config.height.toNat
  frame : ∀ i : Nat, (i : Int) < q.mBufferCount →
    i < 4 ∧ 2 * config.pixels ≤ (q.mBuffers i).length.toNat

/-- Configurations whose sizes neither wrap nor are cut. -/
def InRange (config : PipelineConfig) : Prop :=
  config.width.toNat < 2 ^ 16 ∧ config.height.toNat < 2 ^ 16 ∧ 3 * config.pixels < 2 ^ 32

theorem toNat_setWidth_eq_iff (x : BitVec 32) : (x.setWidth 16).toNat = x.toNat ↔ x.toNat < 2 ^ 16 := by
  rw [BitVec.toNat_setWidth]
  omega

theorem rgbSize_toNat (config : PipelineConfig) :
    (config.width * config.height * 3).toNat = 3 * config.pixels % 2 ^ 32 := by
  simp [BitVec.toNat_mul, PipelineConfig.pixels, Nat.mul_comm]

/-- Grants that fit are for two, three or four buffers. -/
theorem granted_fits {env : KernelEnv} {p : CameraPipeline} {config : PipelineConfig}
    (hfit : ∀ n o, GrantsFit o (env n o)) {count : BitVec 32} (hg : granted env p config = some count) :
    0 < count.toInt.toNat ∧ count.toInt.toNat ≤ 4 := by
  unfold granted at hg
  split at hg
  · cases hg
  · split at hg
    · cases hg
    · split at hg
      · cases hg
      · next given hreq =>
        split at hg
        · cases hg
        · next hge =>
          obtain rfl := Option.some.inj hg
          have hle : given.toNat ≤ 4 := by
            have hgiven := hfit 1 (.requestBuffers 2 .mmap)
            rw [hreq] at hgiven
            exact BitVec.le_def.mp hgiven
          have hge : 2 ≤ given.toNat := BitVec.le_def.mp (BitVec.not_lt.mp hge)
          have hint : given.toInt = given.toNat := BitVec.toInt_eq_toNat_of_lt (by omega)
          omega

/-- **Sizes.**  The kernel grants no more buffers than `mBuffers` has slots. -/
theorem configure_sizes_iff (plat : Platform) (p : CameraPipeline) (config : PipelineConfig)
    (env : KernelEnv) (hgrants : ∀ n o, GrantsFit o (env n o)) (q : CameraPipeline)
    (hret : run env 0 (configure plat config p) = (0, q)) (hisp : config.enableISP = true) :
    SizesAgree config q ↔ InRange config ∧ ∀ count ∈ granted env p config,
      ∀ i < count.toInt.toNat, 2 * config.pixels ≤ (lengthAt env i).toNat := by
  have hexit : Exit plat env p config (run env 0 (configure plat config p)) := configure_exit
  rw [hret] at hexit
  generalize hr : ((0, q) : Int × CameraPipeline) = r at hexit
  cases hexit with
  | busy hs => exact absurd (congrArg Prod.fst hr) (by decide : (0 : Int) ≠ -EBUSY)
  | refused hs hg he => exact absurd (congrArg Prod.fst hr).symm he
  | unmapped hs hg hk hprev hfail he => exact absurd (congrArg Prod.fst hr).symm he
  | noIsp hs hg hall hisp hfail d => exact absurd (congrArg Prod.fst hr) (by simp)
  | raw hs hg hall hraw => simp [hisp] at hraw
  | @done hs count hg hall _ hstart d hd rgb =>
    obtain rfl : q = _ := congrArg Prod.snd hr
    have hw := toNat_setWidth_eq_iff config.width
    have hh := toNat_setWidth_eq_iff config.height
    have hsize := rgbSize_toNat config
    constructor
    · rintro ⟨hrgb, ⟨d', hd', hdw, hdh⟩, -, hframe⟩
      obtain rfl : d = d' := Option.some.inj hd'
      rw [hd] at hdw hdh
      refine ⟨⟨hw.mp hdw, hh.mp hdh, ?_⟩, fun count' hc i hi => ?_⟩
      · have : (config.width * config.height * 3).toNat = 3 * config.pixels := hrgb
        omega
      · obtain rfl : count = count' := Option.some.inj (hg.symm.trans hc)
        have := (hframe i (by simp [withGamma, withIsp, mapped]; omega)).2
        simpa [withGamma, withIsp, mapped, mappedSlots, hi] using this
    · rintro ⟨⟨hw', hh', hrgb⟩, hlen⟩
      refine ⟨?_, ⟨d, rfl, ?_, ?_⟩, ⟨_, rfl, hw.mpr hw', hh.mpr hh'⟩, fun i hi => ?_⟩
      · show (config.width * config.height * 3).toNat = _
        omega
      · rw [hd]
        exact hw.mpr hw'
      · rw [hd]
        exact hh.mpr hh'
      · have hi : i < count.toInt.toNat := by
          have : (i : Int) < count.toInt := hi
          omega
        refine ⟨hi.trans_le (granted_fits hgrants hg).2, ?_⟩
        have := hlen count hg i hi
        simpa [withGamma, withIsp, mapped, mappedSlots, hi] using this

theorem configure_sizes_small :
    SizesAgree smallConfig (run kernelGrants 0 (configure flatPlatform smallConfig
      (next flatPlatform (.new 0 smallConfig fun _ => 0) (.openDev 0, kernelGrants)))).2 :=
  (configure_sizes_iff flatPlatform _ smallConfig kernelGrants kernelGrants_fit _
    (Prod.ext (by decide) rfl) rfl).mpr
    ⟨⟨by decide, by decide, by decide⟩, fun _ _ _ _ => (by decide : 2 * 4 ≤ 16)⟩

/-- The kernel of `kernelGrants`, with buffers of four bytes. -/
def shortBuffers : KernelEnv := fun n o =>
  match o with
  | .queryBuf _ _ => .ok (4, 0)
  | o => kernelGrants n o

/-- A 2 x 2 configuration is accepted on buffers that hold half of a frame. -/
theorem short_buffers_accepted : ¬ ∀ (plat : Platform) (p : CameraPipeline) (config : PipelineConfig)
    (env : KernelEnv), (∀ n o, GrantsFit o (env n o)) → ∀ q : CameraPipeline,
    run env 0 (configure plat config p) = (0, q) → config.enableISP = true → SizesAgree config q := by
  intro h
  have hfit (n : Nat) (o : KernelOp) : GrantsFit o (shortBuffers n o) := by
    cases o with
    | requestBuffers count memory => exact (by decide : (2 : BitVec 32) ≤ 4)
    | _ => trivial
  have hsizes := h flatPlatform
    (next flatPlatform (.new 0 smallConfig fun _ => 0) (.openDev 0, kernelGrants)) smallConfig
    shortBuffers hfit _ (Prod.ext (by decide) rfl) rfl
  exact absurd (hsizes.frame 0 (by decide)).2 (by decide)

/-! ## The other methods -/

/-- What the ISP path reads besides the frame and its own objects. -/
def ispView (p : CameraPipeline) :
    PipelineConfig × Int × BitVec 32 × Option ColorConvNEON × (Nat → Byte) :=
  (p.mConfig, p.mBufferCount, p.mRgbBufferSize, p.mColorConv, p.mGammaLut)

theorem keeps_ispView {α : Type} {m : Pipe α} (hm : Keeps setup m) : Keeps ispView m := hm.map ispView

section
variable {ok : (o : KernelOp) → o.Ans → Prop} {plat : Platform} {p : CameraPipeline}

theorem stopStreaming_view : Post ok (fun r => ispView r.2 = ispView p ∨ r.2.mBufferCount = 0)
    (stopStreaming p) := by
  unfold stopStreaming
  rw [post_stateBind, post_get]
  refine post_stateIte (fun _ => .inl rfl) fun _ => ?_
  rw [post_stateBind, post_ask]
  intro off _
  rw [post_stateBind, post_get, post_stateBind]
  exact post_true _ fun r => .inr rfl

/-- The pipeline without what `close` resets behind the buffers. -/
def forgetClosed (p : CameraPipeline) : CameraPipeline :=
  { p with mRgbBuffer := none, mRgbBufferSize := 0, mFd := 0, mState := .closed }

/-- `close` once the buffers are released. -/
theorem closeTail_keeps : Keeps forgetClosed (do
    onlyIf (← get).mRgbBuffer.isSome
      (modify fun p => { p with mRgbBuffer := none, mRgbBufferSize := 0 } : Pipe Unit)
    onlyIf (0 ≤ (← get).mFd) closeFd
    modify fun p => { p with mState := .closed }
    return (0 : Int)) := by
  refine .bind keeps_get fun _ => .bind (onlyIf_keeps (keeps_modify fun _ => rfl)) fun _ => ?_
  refine .bind keeps_get fun _ => .bind (onlyIf_keeps ?_) fun _ => ?_
  · exact .bind (keeps_ask _) fun _ => keeps_modify fun _ => rfl
  · exact .bind (keeps_modify fun _ => rfl) fun _ => keeps_pure _

theorem close_count : Post ok (fun r => r.2.mBufferCount = 0) (close p) := by
  unfold close
  rw [post_stateBind]
  refine post_true _ fun r => ?_
  rw [post_stateBind, post_get, post_stateBind]
  refine post_true _ fun r => ?_
  rw [post_stateBind, post_modify]
  exact closeTail_keeps.post fun r hr => congrArg (fun p => p.mBufferCount) hr

/-- Only `configure` changes what the ISP path reads while there are buffers. -/
theorem exec_view (c : PipelineCall) (hc : ∀ config, c ≠ .configure config) :
    Post ok (fun r => ispView r.2 = ispView p ∨ r.2.mBufferCount = 0) (exec plat c p) := by
  cases c with
  | openDev cameraId =>
    exact post_stateBind.mpr (((openDev_confined cameraId).keeps.map ispView).post fun _ hr => .inl hr)
  | configure config => exact absurd rfl (hc config)
  | startStreaming =>
    exact post_stateBind.mpr ((startStreaming_confined.keeps.map ispView).post fun _ hr => .inl hr)
  | stopStreaming => exact post_stateBind.mpr stopStreaming_view
  | captureFrame out fmt =>
    exact post_stateBind.mpr ((keeps_ispView (captureFrame_confined plat out fmt).keeps).post fun _ hr => .inl hr)
  | captureForAf =>
    exact post_stateBind.mpr ((keeps_ispView (captureForAf_confined plat).keeps).post fun _ hr => .inl hr)
  | startAfScan => exact (keeps_ispView (startAfScan_confined plat).keeps).post fun _ hr => .inl hr
  | cancelAf => exact (keeps_ispView cancelAf_confined.keeps).post fun _ hr => .inl hr
  | getExposure => exact post_stateBind.mpr ((keeps_ispView getExposure_confined.keeps).post fun _ hr => .inl hr)
  | getGain => exact post_stateBind.mpr ((keeps_ispView getGain_confined.keeps).post fun _ hr => .inl hr)
  | close => exact post_stateBind.mpr (close_count.mono fun _ hr => .inr hr)

end

/-- A `configure` step leaves the state of its exit. -/
theorem next_configure (plat : Platform) (p : CameraPipeline) (config : PipelineConfig) (env : KernelEnv) :
    next plat p (.configure config, env) = (run env 0 (configure plat config p)).2 :=
  congrArg Prod.snd (run_stateBind env 0 (configure plat config) (fun _ => pure ()) p)

/-- `captureFrame` can take a frame through the ISP. -/
def IspRuns (p : CameraPipeline) : Prop :=
  p.mState = .streaming ∧ p.mConfig.enableISP = true ∧ p.mDemosaic.isSome ∧ p.mColorConv.isSome ∧
    ∃ index, ¬ indexOutside index p.mBufferCount

theorem IspRuns.count_ne_zero {p : CameraPipeline} (h : IspRuns p) : p.mBufferCount ≠ 0 := by
  obtain ⟨-, -, -, -, index, hin⟩ := h
  intro h0
  rw [indexOutside, h0] at hin
  exact hin (BitVec.le_def.mpr (by simp))

/-- A property of what the ISP path reads that holds while there are buffers: it is kept by a
run when every `configure` keeps it. -/
theorem reached_view {plat : Platform} {ok : CameraPipeline → PipelineCall × KernelEnv → Prop}
    {R : CameraPipeline → Prop} (hview : ∀ p q, ispView q = ispView p → R p → R q)
    (hconf : ∀ p config env, ok p (.configure config, env) → (p.mBufferCount ≠ 0 → R p) →
      let q := (run env 0 (configure plat config p)).2
      q.mBufferCount ≠ 0 → R q)
    {p : CameraPipeline} (h : Reached plat ok p) : p.mBufferCount ≠ 0 → R p := by
  refine h.invariant (P := fun p => p.mBufferCount ≠ 0 → R p) ?_ ?_
  · rintro p ⟨id, config, lut, rfl⟩ hcount
    exact absurd rfl hcount
  · rintro p ⟨c, env⟩ q hp hok rfl
    by_cases hc : ∃ config, c = .configure config
    · obtain ⟨config, rfl⟩ := hc
      rw [next_configure]
      exact hconf p config env hok hp
    · intro hcount
      have hpost : ispView (next plat p (c, env)) = ispView p ∨ (next plat p (c, env)).mBufferCount = 0 :=
        run_of_post (exec_view c fun config heq => hc ⟨config, heq⟩) env 0
      rcases hpost with hsame | hzero
      · have hn : (next plat p (c, env)).mBufferCount = p.mBufferCount :=
          congrArg (fun v => v.2.1) hsame
        exact hview p _ hsame (hp (hn ▸ hcount))
      · exact absurd hzero hcount

end CameraPipeline

end MochaHal.Camera
