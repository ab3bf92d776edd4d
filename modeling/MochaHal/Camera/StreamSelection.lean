import MochaHal.Lib.Service
import MochaHal.Camera.Tracker
import MochaHal.Camera.DeviceBounds

/-! The stream that `configure_streams` gives the pipeline, and what it leaves behind.
The comment over the scan prefers RGBA_8888, then IMPLEMENTATION_DEFINED, then any
stream but a BLOB.  `configureStreams_selects_iff` says for which lists the scan keeps
to that: it looks past the first usable stream only when that one is
IMPLEMENTATION_DEFINED, and then at one stream more.

`configureStreams_settles_iff` compares the shortcut for an unchanged resolution with
the full path. -/

namespace MochaHal.Camera
open MochaHal.Prog

/-! ## The scan -/

/-- An output stream that can feed the pipeline. -/
def Stream.usable (s : Stream) : Bool := s.stream_type = .output ∧ s.format ≠ .blob

/-- A stream as the scan leaves it. -/
def Stream.buffered (s : Stream) : Stream :=
  if s.stream_type = .output then { s with max_buffers := 2 } else s

namespace CameraDevice

@[simp] theorem buffered_type (s : Stream) : s.buffered.stream_type = s.stream_type := by
  unfold Stream.buffered
  split <;> rfl

@[simp] theorem buffered_format (s : Stream) : s.buffered.format = s.format := by
  unfold Stream.buffered
  split <;> rfl

/-- The scan of streams with pixels: the output streams are considered in order. -/
theorem scanStreams_eq (sel : Selection) {streams : List Stream}
    (h : ∀ s ∈ streams, s.width ≠ 0 ∧ s.height ≠ 0) :
    scanStreams sel streams =
      (some (((streams.map Stream.buffered).filter fun s => s.stream_type = .output).foldl
        Selection.consider sel), streams.map Stream.buffered) := by
  induction streams generalizing sel with
  | nil => rfl
  | cons s rest ih =>
    have hs := h s (by simp)
    have hdim : ¬ (s.width = 0 ∨ s.height = 0) := fun h0 => h0.elim hs.1 hs.2
    have hrest : ∀ t ∈ rest, t.width ≠ 0 ∧ t.height ≠ 0 := fun t ht => h t (by simp [ht])
    rw [scanStreams, if_neg hdim]
    by_cases hout : s.stream_type = .output
    · simp [hout, ih _ hrest, Stream.buffered]
    · simp [hout, ih _ hrest, Stream.buffered]

/-- Once there is a pipeline stream the choice is made. -/
theorem consider_settled {sel : Selection} (h : sel.pipelineStream.isSome) (outs : List Stream) :
    (outs.foldl Selection.consider sel).choice = sel.choice := by
  induction outs generalizing sel with
  | nil => rfl
  | cons s rest ih =>
    have hsome : (sel.consider s).pipelineStream = sel.pipelineStream ∧
        (sel.consider s).choice = sel.choice := by
      simp [Selection.consider, Selection.choice, Option.isNone_iff_eq_none.not.mpr
        (Option.isSome_iff_ne_none.mp h)]
    rw [List.foldl_cons, ih (hsome.1 ▸ h), hsome.2]

/-- What the scan chooses from the usable streams. -/
def chosen : List Stream → Option Stream
  | [] => none
  | s :: rest =>
    if s.format = .implementationDefined then
      match rest with
      | t :: _ => if t.format = .rgba8888 then some t else some s
      | [] => some s
    else some s

theorem consider_blob {sel : Selection} {s : Stream} (h : s.format = .blob) :
    sel.consider s = { sel with outputStream := some s } := by
  simp [Selection.consider, h]

/-- With an IMPLEMENTATION_DEFINED stream in hand only the next usable one matters. -/
theorem consider_held {s : Stream} {o : Option Stream} (outs : List Stream)
    (hout : ∀ t ∈ outs, t.stream_type = .output) (hs : s.format = .implementationDefined) :
    (outs.foldl Selection.consider ⟨none, o, some s⟩).choice =
      chosen (s :: outs.filter Stream.usable) := by
  induction outs generalizing o with
  | nil => simp [chosen, hs, Selection.choice]
  | cons t rest ih =>
    have ht := hout t (by simp)
    have hrest : ∀ t ∈ rest, t.stream_type = .output := fun t ht => hout t (by simp [ht])
    rw [List.foldl_cons]
    by_cases hblob : t.format = .blob
    · rw [consider_blob hblob, ih hrest]
      simp [Stream.usable, hblob]
    · by_cases hrgba : t.format = .rgba8888
      · rw [consider_settled (by simp [Selection.consider, hrgba])]
        simp [Selection.consider, Selection.choice, Stream.usable, chosen, hs, ht, hrgba]
      · rw [consider_settled (by simp [Selection.consider, hrgba, hblob])]
        simp [Selection.consider, Selection.choice, Stream.usable, chosen, hs, ht, hrgba, hblob]

theorem consider_choice {o : Option Stream} (outs : List Stream)
    (hout : ∀ t ∈ outs, t.stream_type = .output) :
    (outs.foldl Selection.consider ⟨none, o, none⟩).choice = chosen (outs.filter Stream.usable) := by
  induction outs generalizing o with
  | nil => rfl
  | cons t rest ih =>
    have ht := hout t (by simp)
    have hrest : ∀ t ∈ rest, t.stream_type = .output := fun t ht => hout t (by simp [ht])
    rw [List.foldl_cons]
    by_cases hblob : t.format = .blob
    · rw [consider_blob hblob, ih hrest]
      simp [Stream.usable, hblob]
    · have husable : t.usable = true := by simp [Stream.usable, ht, hblob]
      rw [List.filter_cons_of_pos husable]
      by_cases himpl : t.format = .implementationDefined
      · have hheld : Selection.consider ⟨none, o, none⟩ t = ⟨none, some t, some t⟩ := by
          simp [Selection.consider, himpl]
        rw [hheld, consider_held rest hrest himpl]
      · by_cases hrgba : t.format = .rgba8888
        · rw [consider_settled (by simp [Selection.consider, hrgba])]
          simp [Selection.consider, Selection.choice, chosen, hrgba]
        · rw [consider_settled (by simp [Selection.consider, hrgba, hblob, himpl])]
          simp [Selection.consider, Selection.choice, chosen, hrgba, hblob, himpl]

/-- The usable streams of a list, as the scan leaves them. -/
def usableStreams (streams : List Stream) : List Stream :=
  (streams.map Stream.buffered).filter Stream.usable

theorem pipelineStream_eq {streams : List Stream} (h : ∀ s ∈ streams, s.width ≠ 0 ∧ s.height ≠ 0) :
    pipelineStream streams = chosen (usableStreams streams) := by
  rw [pipelineStream, scanStreams_eq _ h, Option.bind_some, consider_choice]
  · rw [List.filter_filter, usableStreams]
    congr 2
    funext s
    by_cases hs : s.stream_type = .output
    · simp [hs, Stream.usable]
    · simp [hs, Stream.usable]
  · intro t ht
    simpa using (List.mem_filter.mp ht).2

/-! ## The preference -/

/-- RGBA_8888 before IMPLEMENTATION_DEFINED before the other formats. -/
structure Preferred (us : List Stream) (s : Stream) : Prop where
  mem : s ∈ us
  rgba : ∀ t ∈ us, t.format = .rgba8888 → s.format = .rgba8888
  impl : ∀ t ∈ us, t.format = .implementationDefined →
    s.format = .rgba8888 ∨ s.format = .implementationDefined

/-- The orders in which the scan finds the preferred stream. -/
def InOrder : List Stream → Prop
  | [] => False
  | s :: rest =>
    s.format = .rgba8888 ∨
    (s.format = .implementationDefined ∧
      ((∃ t ∈ rest.head?, t.format = .rgba8888) ∨ ∀ t ∈ rest, t.format ≠ .rgba8888)) ∨
    ∀ t ∈ s :: rest, t.format ≠ .rgba8888 ∧ t.format ≠ .implementationDefined

theorem preferred_rgba {us : List Stream} {s : Stream} (hs : s ∈ us) (hrgba : s.format = .rgba8888) :
    Preferred us s := ⟨hs, fun _ _ _ => hrgba, fun _ _ _ => .inl hrgba⟩

/-- With an IMPLEMENTATION_DEFINED stream first. -/
theorem chosen_held_iff {s : Stream} (rest : List Stream) (hs : s.format = .implementationDefined) :
    (∃ c ∈ chosen (s :: rest), Preferred (s :: rest) c) ↔
      (∃ t ∈ rest.head?, t.format = .rgba8888) ∨ ∀ t ∈ rest, t.format ≠ .rgba8888 := by
  have hself : Preferred (s :: rest) s ↔ ∀ t ∈ rest, t.format ≠ .rgba8888 := by
    constructor
    · intro h t ht hrgba
      have := h.rgba t (by simp [ht]) hrgba
      simp [hs] at this
    · intro h
      refine ⟨by simp, fun t ht hrgba => ?_, fun _ _ _ => .inr hs⟩
      rcases List.mem_cons.mp ht with rfl | ht
      · exact hrgba
      · exact absurd hrgba (h t ht)
  cases rest with
  | nil => simpa [chosen, hs] using hself
  | cons t rest =>
    by_cases ht : t.format = .rgba8888
    · have hpref : Preferred (s :: t :: rest) t := preferred_rgba (by simp) ht
      simp [chosen, hs, ht, hpref]
    · simpa [chosen, hs, ht] using hself

theorem chosen_preferred_iff (us : List Stream) :
    (∃ c ∈ chosen us, Preferred us c) ↔ InOrder us := by
  cases us with
  | nil => simp [chosen, InOrder]
  | cons s rest =>
    by_cases himpl : s.format = .implementationDefined
    · rw [chosen_held_iff rest himpl]
      simp [InOrder, himpl]
    · by_cases hrgba : s.format = .rgba8888
      · have hpref : Preferred (s :: rest) s := preferred_rgba (by simp) hrgba
        simp [chosen, InOrder, hrgba, hpref]
      · have hlast : Preferred (s :: rest) s ↔
            ∀ t ∈ s :: rest, t.format ≠ .rgba8888 ∧ t.format ≠ .implementationDefined := by
          constructor
          · intro h t ht
            refine ⟨fun ht' => hrgba (h.rgba t ht ht'), fun ht' => ?_⟩
            exact (h.impl t ht ht').elim hrgba himpl
          · intro h
            exact ⟨by simp, fun t ht ht' => absurd ht' (h t ht).1, fun t ht ht' => absurd ht' (h t ht).2⟩
        simp only [chosen, himpl, InOrder, hrgba, ← hlast, Option.mem_def]
        simp

/-! ## The call -/

/-- The scan of a whole list. -/
def scanned (streams : List Stream) : Selection :=
  ((streams.map Stream.buffered).filter fun s => s.stream_type = .output).foldl
    Selection.consider ⟨none, none, none⟩

/-- A list that the call accepts for scanning. -/
structure Listed (streams : List Stream) : Prop where
  pos : 1 ≤ streams.length
  le : streams.length ≤ 20
  dims : ∀ s ∈ streams, s.width ≠ 0 ∧ s.height ≠ 0

theorem configureStreams_eq (plat : Platform) {streams : List Stream} (h : Listed streams) :
    configureStreams plat streams = match pipelineStream streams with
      | none => return none
      | some stream => do
        if sameCapture (← get) stream then return some (0, streams.map Stream.buffered)
        else
          let r ← reconfigure plat (scanned streams) stream (streams.map Stream.buffered)
          return some r := by
  have hlen : ¬ (streams.length = 0 ∨ streams.length > 20) := by
    have := h.pos
    have := h.le
    omega
  rw [configureStreams, if_neg hlen, pipelineStream, scanStreams_eq _ h.dims]
  rfl

/-- The call picks the preferred stream and configures its size, and an error is
returned when there is no usable stream. -/
def PicksPreferred (plat : Platform) (streams : List Stream) : Prop :=
  ∀ (d : CameraDevice) (env : DeviceEnv),
    let out := run env 0 (configureStreams plat streams d)
    ∃ r, out.1 = some r ∧
      if usableStreams streams = [] then r.1 ≠ 0
      else ∃ s ∈ pipelineStream streams, Preferred (usableStreams streams) s ∧
        (r.1 = 0 → out.2.last_config_width = s.width ∧ out.2.last_config_height = s.height)

theorem configureStreams_picked (plat : Platform) {streams : List Stream} (h : Listed streams)
    {stream : Stream} (hs : pipelineStream streams = some stream) (d : CameraDevice) :
    Post (fun _ _ => True) (fun out => ∃ r, out.1 = some r ∧ (r.1 = 0 →
      out.2.last_config_width = stream.width ∧ out.2.last_config_height = stream.height))
      (configureStreams plat streams d) := by
  rw [configureStreams_eq plat h, hs]
  dsimp only
  rw [post_stateBind, post_get]
  refine post_stateIte (fun hsame => ⟨_, rfl, fun _ => ⟨hsame.1, hsame.2.1⟩⟩) fun _ => ?_
  rw [post_stateBind]
  exact (reconfigure_post _ stream _).mono fun r hr => ⟨r.1, rfl, hr.2⟩

theorem configureStreams_selects_iff (plat : Platform) (streams : List Stream)
    (hpos : 1 ≤ streams.length) (hle : streams.length ≤ 20)
    (hdims : ∀ s ∈ streams, s.width ≠ 0 ∧ s.height ≠ 0) :
    PicksPreferred plat streams ↔ InOrder (usableStreams streams) := by
  have hlisted : Listed streams := ⟨hpos, hle, hdims⟩
  rw [← chosen_preferred_iff, ← pipelineStream_eq hdims]
  by_cases hnone : usableStreams streams = []
  · have hps : pipelineStream streams = none := by rw [pipelineStream_eq hdims, hnone, chosen]
    constructor
    · intro h
      obtain ⟨r, hr, -⟩ := h (.init 0) deviceGrants
      rw [configureStreams_eq plat hlisted, hps] at hr
      cases hr
    · rintro ⟨s, hs, -⟩
      rw [hps] at hs
      cases hs
  · constructor
    · intro h
      obtain ⟨r, -, hr⟩ := h (.init 0) deviceGrants
      rw [if_neg hnone] at hr
      obtain ⟨s, hs, hpref, -⟩ := hr
      exact ⟨s, hs, hpref⟩
    · rintro ⟨s, hs, hpref⟩ d env
      obtain ⟨r, hr, hsize⟩ := run_of_post (configureStreams_picked plat hlisted hs d) env 0
      refine ⟨r, hr, ?_⟩
      rw [if_neg hnone]
      exact ⟨s, hs, hpref, hsize⟩

theorem configureStreams_selects_rgba : PicksPreferred flatPlatform [rgbaStream] :=
  (configureStreams_selects_iff flatPlatform [rgbaStream] (by decide) (by decide) (by decide)).mpr
    (.inl rfl)

def yuvStream : Stream := ⟨1, .output, 4, 4, .ycbcr420_888, 2⟩

/-- A YUV stream before the RGBA one is taken. -/
theorem yuv_first_is_picked : ¬ ∀ (plat : Platform) (streams : List Stream), 1 ≤ streams.length →
    streams.length ≤ 20 → (∀ s ∈ streams, s.width ≠ 0 ∧ s.height ≠ 0) → PicksPreferred plat streams := by
  intro h
  obtain ⟨r, -, hr⟩ := h flatPlatform [yuvStream, rgbaStream] (by decide) (by decide) (by decide)
    (.init 0) deviceGrants
  rw [if_neg (by decide)] at hr
  obtain ⟨s, hs, hpref, -⟩ := hr
  obtain rfl : yuvStream = s := Option.some.inj hs
  exact absurd (hpref.rgba rgbaStream (by decide) rfl) (by decide)

def blobStream : Stream := ⟨2, .output, 4, 4, .blob, 2⟩

/-- A list of BLOB streams runs into the null pointer, whatever the device. -/
theorem blob_only_reads_null (plat : Platform) (d : CameraDevice) (env : DeviceEnv) :
    (run env 0 (configureStreams plat [blobStream] d)).1 = none := rfl

/-! ## The shortcut -/

theorem scanStreams_dims {sel : Selection} {streams : List Stream}
    (h : (scanStreams sel streams).1.isSome) : ∀ s ∈ streams, s.width ≠ 0 ∧ s.height ≠ 0 := by
  induction streams generalizing sel with
  | nil => simp
  | cons s rest ih =>
    unfold scanStreams at h
    by_cases hdim : s.width = 0 ∨ s.height = 0
    · rw [if_pos hdim] at h
      cases h
    · rw [if_neg hdim] at h
      have hrest : ∀ t ∈ rest, t.width ≠ 0 ∧ t.height ≠ 0 := by
        split at h
        · exact ih h
        · exact ih h
      intro t ht
      rcases List.mem_cons.mp ht with rfl | ht
      · exact not_or.mp hdim
      · exact hrest t ht

/-- The last output stream that was scanned is the output stream. -/
theorem consider_outputStream (sel : Selection) (outs : List Stream) :
    (outs.foldl Selection.consider sel).outputStream = (outs.getLast?.or sel.outputStream) := by
  have hstep (sel : Selection) (s : Stream) : (sel.consider s).outputStream = some s := by
    unfold Selection.consider
    dsimp only
    split_ifs <;> rfl
  induction outs generalizing sel with
  | nil => rfl
  | cons s rest ih =>
    rw [List.foldl_cons, ih, hstep]
    cases hl : rest.getLast? with
    | none => simp [List.getLast?_cons, hl]
    | some t => simp [List.getLast?_cons, hl]

/-- A scan that found a pipeline stream found an output stream. -/
theorem scanned_outputStream {streams : List Stream} (h : (scanned streams).choice.isSome) :
    ∃ s ∈ streams.map Stream.buffered, (scanned streams).outputStream = some s := by
  have hout := consider_outputStream ⟨none, none, none⟩
    ((streams.map Stream.buffered).filter fun s => s.stream_type = .output)
  rw [Option.or_none] at hout
  cases hl : ((streams.map Stream.buffered).filter fun s => s.stream_type = .output).getLast? with
  | none =>
    rw [List.getLast?_eq_none_iff] at hl
    rw [scanned, hl] at h
    cases h
  | some s => exact ⟨s, (List.mem_filter.mp (List.mem_of_getLast? hl)).1, hout.trans hl⟩

/-- What the client can rely on after a configuration that returned 0. -/
structure Settled (old : InFlightTracker) (streams : List Stream) (d : CameraDevice)
    (t : InFlightTracker) : Prop where
  offered : ∀ s ∈ streams, s.stream_type = .output →
    s.max_buffers = 2 ∧ s.format ≠ .implementationDefined
  drained : ∀ r ∈ old, t.lookup r.frameNumber = none
  output : ∃ s ∈ streams, d.output_stream.map Stream.id = some s.id

/-- The call returns early. -/
def TakesShortcut (d : CameraDevice) (streams : List Stream) : Prop :=
  1 ≤ streams.length ∧ streams.length ≤ 20 ∧ ∃ s ∈ pipelineStream streams, sameCapture d s

/-- Nothing is left to do for the new streams. -/
def NothingPending (d : CameraDevice) (t : InFlightTracker) (streams : List Stream) : Prop :=
  (∀ s ∈ streams, s.stream_type = .output → s.format ≠ .implementationDefined) ∧ t = [] ∧
    ∃ s ∈ streams, d.output_stream.map Stream.id = some s.id

@[simp] theorem buffered_id (s : Stream) : s.buffered.id = s.id := by
  unfold Stream.buffered
  split <;> rfl

@[simp] theorem overrideFormat_id (s : Stream) : (overrideFormat s).id = s.id := by
  unfold overrideFormat
  split <;> rfl

theorem buffered_max {s : Stream} (h : s.stream_type = .output) : s.buffered.max_buffers = 2 := by
  simp [Stream.buffered, h]

/-- After the early return everything is as the scan left it. -/
theorem settled_shortcut_iff (d : CameraDevice) (t : InFlightTracker) (streams : List Stream) :
    Settled t (streams.map Stream.buffered) d t ↔ NothingPending d t streams := by
  constructor
  · rintro ⟨hoff, hdrained, hout⟩
    refine ⟨fun s hs htype => ?_, ?_, ?_⟩
    · have := (hoff s.buffered (List.mem_map_of_mem hs) (by simpa using htype)).2
      simpa using this
    · rw [List.eq_nil_iff_forall_not_mem]
      intro r hr
      have := List.find?_eq_none.mp (hdrained r hr) r hr
      simp at this
    · simpa using hout
  · rintro ⟨hfmt, rfl, hout⟩
    refine ⟨fun s hs htype => ?_, by simp, by simpa using hout⟩
    obtain ⟨u, hu, rfl⟩ := List.mem_map.mp hs
    rw [buffered_type] at htype
    exact ⟨buffered_max htype, by simpa using hfmt u hu htype⟩

/-- After the full path. -/
theorem settled_full {d : CameraDevice} (old : InFlightTracker) {streams : List Stream}
    (hchoice : (scanned streams).choice.isSome)
    (hout : d.output_stream = (scanned streams).outputStream) :
    Settled old ((streams.map Stream.buffered).map overrideFormat) d [] := by
  refine ⟨fun s hs htype => ?_, fun _ _ => rfl, ?_⟩
  · obtain ⟨u, hu, rfl⟩ := List.mem_map.mp hs
    obtain ⟨s, -, rfl⟩ := List.mem_map.mp hu
    unfold overrideFormat at htype ⊢
    by_cases hover : s.buffered.stream_type = .output ∧ s.buffered.format = .implementationDefined
    · rw [if_pos hover] at htype ⊢
      exact ⟨buffered_max (by simpa using hover.1), by simp⟩
    · rw [if_neg hover] at htype ⊢
      exact ⟨buffered_max (by simpa using htype), fun hf => hover ⟨htype, hf⟩⟩
  · obtain ⟨s, hs, hlast⟩ := scanned_outputStream hchoice
    exact ⟨overrideFormat s, List.mem_map_of_mem hs, by simp [hout, hlast]⟩

section
variable {plat : Platform} {d : CameraDevice} {t : InFlightTracker}

theorem drainResults_foreign (frames : List (BitVec 32)) :
    Only (Service.Foreign InFlightTracker.answer) (drainResults frames) := by
  induction frames with
  | nil => exact only_pure _
  | cons f rest ih => exact .bind (only_ask fun _ => rfl) fun _ => ih

theorem drainInFlight_ensures :
    Service.Ensures InFlightTracker.answer (fun _ t' => t' = []) t (drainInFlight d) := by
  show Service.Ensures InFlightTracker.answer (fun _ t' => t' = []) t
    (onlyIf (t.length > 0) (ask .drainAll >>= drainResults) d)
  by_cases hlen : t.length > 0
  · rw [onlyIf, if_pos hlen]
    exact Service.ensures_foreign (t := []) (drainResults_foreign _ d) (post_true _ fun _ => rfl)
  · rw [onlyIf, if_neg hlen]
    exact List.eq_nil_of_length_eq_zero (by omega)

theorem Plain.foreign {o : DevOp} (h : Plain o) : Service.Foreign InFlightTracker.answer o := by
  intro t
  cases o with
  | isError f => exact absurd h id
  | add f b => exact absurd h id
  | remove f => exact absurd h id
  | markAllAsError => exact absurd h id
  | drainAll => exact absurd h id
  | count => exact absurd h id
  | _ => rfl

theorem startPipeline_output (sel : Selection) (stream : Stream) (opened : CameraPipeline) :
    Post (fun _ _ => True) (fun r => r.1 = 0 → r.2.output_stream = sel.outputStream)
      (startPipeline plat sel stream opened d) := by
  unfold startPipeline
  rw [post_stateBind, post_get, post_stateBind]
  refine post_runOn (post_true _ fun set => ?_)
  refine post_stateIte (fun hne => ?_) fun _ => ?_
  · rw [post_stateBind]
    exact post_true _ fun _ h0 => absurd h0 hne
  · rw [post_stateBind]
    refine post_runOn (post_true _ fun started => ?_)
    refine post_stateIte (fun hne => ?_) fun _ => ?_
    · rw [post_stateBind]
      exact post_true _ fun _ h0 => absurd h0 hne
    · rw [post_stateBind, post_modify]
      exact fun _ => rfl

/-- A full reconfiguration that returns 0 has drained the tracker, overridden the
formats and set the output stream. -/
theorem reconfigure_ensures (sel : Selection) (stream : Stream) (streams : List Stream) :
    Service.Ensures InFlightTracker.answer (fun r t' => r.1.1 = 0 →
      r.1.2 = streams.map overrideFormat ∧ r.2.output_stream = sel.outputStream ∧ t' = []) t
      (reconfigure plat sel stream streams d) := by
  refine Service.ensures_stateBind ?_
  have hdrain : Service.Ensures InFlightTracker.answer _ t (drainInFlight d) := drainInFlight_ensures
  refine hdrain.mono ?_
  rintro ⟨-, d⟩ t rfl
  refine Service.ensures_foreign ?_ ?_
  · refine Only.mono (Only.bind closePrevious_plain fun _ => ?_) (fun _ => Plain.foreign) d
    refine .bind (only_ask trivial) fun garbage => .bind only_get fun _ => ?_
    refine .bind (runOn_plain _ _) fun opened => .ite (only_pure _) ?_
    exact .bind (startPipeline_plain plat sel stream _) fun _ => only_pure _
  · rw [post_stateBind]
    refine post_true _ fun r => ?_
    rw [post_stateBind, post_ask]
    intro garbage _
    rw [post_stateBind, post_get, post_stateBind]
    refine post_runOn (post_true _ fun opened => ?_)
    refine post_stateIte (fun _ h0 => absurd h0 (by decide : -ENODEV ≠ 0)) fun _ => ?_
    rw [post_stateBind]
    exact (startPipeline_output sel stream opened.2).mono fun r hr h0 => ⟨rfl, hr h0, rfl⟩

theorem configureStreams_rejects {streams : List Stream} (h : ¬ Listed streams) :
    ∃ scanned, configureStreams plat streams d = .ret (some (-EINVAL, scanned), d) := by
  unfold configureStreams
  by_cases hlen : streams.length = 0 ∨ streams.length > 20
  · rw [if_pos hlen]
    exact ⟨streams, rfl⟩
  · rw [if_neg hlen]
    cases hscan : scanStreams ⟨none, none, none⟩ streams with
    | mk found scanned =>
      cases found with
      | none => exact ⟨scanned, rfl⟩
      | some sel =>
        have hdims : ∀ s ∈ streams, s.width ≠ 0 ∧ s.height ≠ 0 :=
          scanStreams_dims (hscan ▸ rfl : (scanStreams ⟨none, none, none⟩ streams).1.isSome)
        exact absurd ⟨by omega, by omega, hdims⟩ h

/-- The full path settles the new configuration. -/
theorem configureStreams_full {streams : List Stream} (h : ¬ TakesShortcut d streams) :
    Service.Ensures InFlightTracker.answer
      (fun r t' => ∀ streams', r.1 = some (0, streams') → Settled t streams' r.2 t') t
      (configureStreams plat streams d) := by
  by_cases hlisted : Listed streams
  · rw [configureStreams_eq plat hlisted]
    cases hps : pipelineStream streams with
    | none => exact fun streams' h0 => by cases h0
    | some stream =>
      have hsame : ¬ sameCapture d stream := fun hs => h ⟨hlisted.pos, hlisted.le, stream, hps, hs⟩
      have hchoice : (scanned streams).choice.isSome := by
        rw [pipelineStream, scanStreams_eq _ hlisted.dims] at hps
        exact Option.isSome_of_mem hps
      dsimp only
      refine Service.ensures_stateBind ?_
      show Service.Ensures InFlightTracker.answer _ t ((if sameCapture d stream then _ else _ : Dev _) d)
      rw [if_neg hsame]
      refine Service.ensures_stateBind ((reconfigure_ensures _ stream _).mono ?_)
      rintro ⟨⟨ret, set⟩, d'⟩ t' hr streams' h0
      obtain ⟨rfl, rfl⟩ := Prod.mk.inj (Option.some.inj h0)
      obtain ⟨rfl, hout, rfl⟩ := hr rfl
      exact settled_full t hchoice hout
  · obtain ⟨scanned, heq⟩ : ∃ scanned, configureStreams plat streams d = _ :=
      configureStreams_rejects hlisted
    rw [heq]
    intro streams' h0
    exact absurd (congrArg Prod.fst (Option.some.inj h0)) (by decide : -EINVAL ≠ 0)

theorem configureStreams_early {streams : List Stream} (h : TakesShortcut d streams) :
    configureStreams plat streams d = .ret (some (0, streams.map Stream.buffered), d) := by
  obtain ⟨hpos, hle, stream, hps, hsame⟩ := h
  obtain ⟨sel, hsel, -⟩ := Option.bind_eq_some_iff.mp hps
  have hdims : ∀ s ∈ streams, s.width ≠ 0 ∧ s.height ≠ 0 := scanStreams_dims (Option.isSome_of_mem hsel)
  rw [configureStreams_eq plat ⟨hpos, hle, hdims⟩, hps]
  show (if sameCapture d stream then _ else _ : Dev _) d = _
  rw [if_pos hsame]
  rfl

end

theorem configureStreams_settles_iff (plat : Platform) (d : CameraDevice) (t : InFlightTracker)
    (streams : List Stream) (env : DeviceEnv) :
    (∀ streams' d' t', Service.exec InFlightTracker.answer env 0 t (configureStreams plat streams d) =
      ((some (0, streams'), d'), t') → Settled t streams' d' t') ↔
    (TakesShortcut d streams → NothingPending d t streams) := by
  by_cases hshort : TakesShortcut d streams
  · rw [configureStreams_early hshort]
    constructor
    · exact fun h _ => (settled_shortcut_iff d t streams).mp (h _ _ _ rfl)
    · rintro h streams' d' t' heq
      cases heq
      exact (settled_shortcut_iff d t streams).mpr (h hshort)
  · refine ⟨fun _ h => absurd h hshort, fun _ streams' d' t' heq => ?_⟩
    have hfull : Service.Ensures InFlightTracker.answer _ t (configureStreams plat streams d) :=
      configureStreams_full hshort
    have hrun := Service.ensures_exec hfull env 0
    rw [heq] at hrun
    exact hrun streams' rfl

def implStream : Stream := ⟨3, .output, 2, 2, .implementationDefined, 2⟩

/-- The second of two configurations of the same size: the stream keeps a format
that no buffer can have, the frame in flight is forgotten and the device still
points at the old stream. -/
theorem shortcut_leaves_format : ¬ ∀ (plat : Platform) (d : CameraDevice) (t : InFlightTracker)
    (streams : List Stream) (env : DeviceEnv) (streams' : List Stream) (d' : CameraDevice)
    (t' : InFlightTracker), Reached plat d →
    Service.exec InFlightTracker.answer env 0 t (configureStreams plat streams d) =
      ((some (0, streams'), d'), t') → Settled t streams' d' t' := by
  intro h
  have hreached : Reached flatPlatform (configuredFor rgbaStream) := by
    refine .next (i := (.configureStreams [rgbaStream], deviceGrants)) started_reached trivial ?_
    exact congrArg Prod.snd (run_stateBind deviceGrants 0 (configureStreams flatPlatform [rgbaStream])
      (fun _ => pure ()) started).symm
  have hsettled := h flatPlatform (configuredFor rgbaStream) [⟨7, some 0, false⟩] [implStream]
    deviceGrants [implStream] (configuredFor rgbaStream) [⟨7, some 0, false⟩] hreached
    (Prod.ext (Prod.ext (by decide) rfl) (by decide))
  exact absurd rfl (hsettled.offered implStream (by simp) rfl).2

end CameraDevice

end MochaHal.Camera
