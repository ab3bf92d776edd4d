import MochaHal.Lib.Pointers
import MochaHal.Lib.Reach

/-! Playback through the mapped ring of `tinyalsa/src/pcm.c`: `pcm_mmap_write` and what it
calls, while the device plays from the ring at its own pace.  The status and the control
are not mapped (`pcm->sync_ptr` is set), so that every exchange is an ioctl.

The program knows the device only through pointers that wrap at `boundary` and that it
refreshes with `pcm_sync_ptr`.  `played_in_order` says that the device still plays the
frames that were handed over, each once and in order, and `write_complete` that a write
which returns zero has handed over all of its own. -/

namespace MochaHal.Audio.Mmap
open MochaHal.Pointers MochaHal.Reach

variable {α : Type}

/-! ## The source -/

def INT_MAX : Nat := 2147483647

/-- The loop of `pcm_set_config` that sizes the boundary, with `fuel` rounds at most. -/
def growBoundary (buffer_size : Nat) : Nat → Nat → Nat
  | 0, boundary => boundary
  | fuel + 1, boundary =>
    if boundary * 2 ≤ INT_MAX - buffer_size then growBoundary buffer_size fuel (boundary * 2)
    else boundary

/-- What `pcm_set_config` leaves for good.  The buffer is not larger than a third of an
`int`: in a larger one the boundary would be the buffer itself. -/
structure Config where
  buffer_size : Nat
  start_threshold : Nat
  pos : 0 < buffer_size
  small : 3 * buffer_size ≤ INT_MAX

def Config.boundary (c : Config) : Nat := growBoundary c.buffer_size 31 c.buffer_size

def avail_min : Nat := 1

/-- The difference is unsigned and read as an `int`. -/
def pcm_mmap_playback_avail (c : Config) (hw_ptr appl_ptr : Nat) : Int :=
  let avail := Int.bmod ((hw_ptr : Int) + c.buffer_size - appl_ptr) (2 ^ 32)
  if avail < 0 then avail + c.boundary
  else if avail ≥ c.boundary then avail - c.boundary
  else avail

def pcm_mmap_appl_forward (c : Config) (appl_ptr frames : Nat) : Nat :=
  if (appl_ptr + frames) % 2 ^ 32 > c.boundary then (appl_ptr + frames) % 2 ^ 32 - c.boundary
  else (appl_ptr + frames) % 2 ^ 32

/-- Where `pcm_mmap_write` is; `todo` are the frames of its buffer from `offset` on. -/
inductive Pc (α : Type)
  | idle (ret : Int)
  /-- at `pcm_sync_ptr` in `pcm_avail_update` -/
  | updating (err : Int) (todo : List α)
  /-- at `pcm_mmap_avail` -/
  | checking (err : Int) (todo : List α)
  /-- in `pcm_wait` -/
  | waiting (todo : List α)
  /-- at the `while` of `pcm_mmap_transfer_areas` -/
  | areas (err : Int) (size : Nat) (todo : List α)
  /-- in the `memcpy` of `pcm_areas_copy`, `done` frames on -/
  | copying (err : Int) (size pcm_offset frames done : Nat) (todo : List α)
  /-- `pcm_wait` has failed -/
  | broken (err : Int)
  deriving DecidableEq, Repr

/-- The pointers of the kernel, the copies of the program in `sync_ptr`, and the ring.
`handed` and `played` are the history: the frames that the program has committed and that the
device has played; `goal` is `handed` with all frames of the last call. -/
structure Sys (α : Type) where
  prepared : Bool
  running : Bool
  kernel_hw : Nat
  kernel_appl : Nat
  hw_ptr : Nat
  appl_ptr : Nat
  ring : Nat → α
  pc : Pc α
  handed : List α
  played : List α
  goal : List α

def Sys.start (ring : Nat → α) : Sys α :=
  ⟨false, false, 0, 0, 0, 0, ring, .idle 0, [], [], []⟩

/-- Steps of the program with the kernel's answers, and of the device. -/
inductive Act (α : Type)
  | pcm_mmap_write (frames : List α)
  | update (ok : Bool)
  | check (ok prepared synced started : Bool) (errno : Nat)
  | wait (err : Int)
  | begin (ok : Bool)
  | copy
  | commit (ok : Bool)
  | leave
  | hw (frames : Nat)
  deriving DecidableEq, Repr

namespace Sys

/-- `pcm_sync_ptr`, as the kernel answers. -/
def sync (s : Sys α) (ok : Bool) : Sys α :=
  if ok then { s with kernel_appl := s.appl_ptr, hw_ptr := s.kernel_hw } else s

/-- `SNDRV_PCM_IOCTL_PREPARE`; the ring is empty after it. -/
def prepare (s : Sys α) : Sys α :=
  if s.prepared then s else { s with prepared := true, kernel_hw := 0, kernel_appl := 0 }

/-- `pcm_start` up to `SNDRV_PCM_IOCTL_START`, if it comes to that. -/
def pcm_start (s : Sys α) (prepared synced : Bool) : Option (Sys α) :=
  if s.prepared ∨ prepared then some (s.prepare.sync synced) else none

/-- The rest of a round of `pcm_mmap_transfer`. -/
def transfer (s : Sys α) (avail err : Int) (todo : List α) : Sys α :=
  if s.running ∧ avail < avail_min then { s with pc := .waiting todo }
  else if min (todo.length : Int) avail = 0 then { s with pc := .idle 0 }
  else { s with pc := .areas err (min (todo.length : Int) avail).toNat todo }

/-- One round of `pcm_mmap_transfer` from `pcm_mmap_avail` on. -/
def check (s : Sys α) (c : Config) (prepared synced started : Bool) (errno : Nat) (err : Int)
    (todo : List α) : Sys α :=
  let avail := pcm_mmap_playback_avail c s.hw_ptr s.appl_ptr
  if avail < 0 then { s with pc := .idle err }
  else if s.running = false ∧ ((c.buffer_size : Int) - avail) % 2 ^ 32 ≥ c.start_threshold then
    match s.pcm_start prepared synced with
    | none => { s with pc := .idle (-errno) }
    | some s =>
      if started then { s with running := true }.transfer avail err todo
      else { s with pc := .idle (-errno) }
  else s.transfer avail err todo

/-- `pcm_mmap_begin`: the offset and the number of frames. -/
def pcm_mmap_begin (s : Sys α) (c : Config) (frames : Nat) : Nat × Nat :=
  let offset := s.appl_ptr % c.buffer_size
  let avail := (pcm_mmap_playback_avail c s.hw_ptr s.appl_ptr % 2 ^ 32).toNat
  (offset, min (min frames (min avail c.buffer_size)) (c.buffer_size - offset))

/-- `pcm_mmap_commit`, and what `pcm_mmap_transfer_areas` makes of its answer. -/
def commit (s : Sys α) (c : Config) (ok : Bool) (err : Int) (size frames : Nat) (todo : List α) :
    Sys α :=
  { { s with appl_ptr := pcm_mmap_appl_forward c s.appl_ptr frames
             handed := s.handed ++ todo.take frames }.sync ok with
    pc := if ok then .areas err (size - frames) (todo.drop frames) else .idle (-1) }

/-- The device plays what it knows to be in the ring, once it is started. -/
def hw (s : Sys α) (c : Config) (frames : Nat) : Sys α :=
  { s with
    kernel_hw := (s.kernel_hw + frames) % c.boundary
    played := s.played ++ (List.range frames).map fun i => s.ring ((s.kernel_hw + i) % c.buffer_size) }

/-- One step; `none` where there is none. -/
def next (c : Config) (s : Sys α) : Act α → Option (Sys α)
  | .pcm_mmap_write frames =>
    match s.pc with
    | .idle _ =>
      -- the count of the frames fits an `int`
      if frames.length ≤ INT_MAX then
        some { s with goal := s.handed ++ frames
                      pc := if frames = [] then .idle 0 else .updating 0 frames }
      else none
    | _ => none
  | .update ok =>
    match s.pc with
    | .updating err todo => some { s.sync ok with pc := .checking err todo }
    | _ => none
  | .check ok prepared synced started errno =>
    match s.pc with
    | .checking err todo =>
      if 0 < errno then some ((s.sync ok).check c prepared synced started errno err todo) else none
    | _ => none
  | .wait err =>
    match s.pc with
    | .waiting todo =>
      if err < 0 then
        some { s with prepared := false, running := false, appl_ptr := 0, pc := .broken err }
      else some { s with pc := .updating err todo }
    | _ => none
  | .begin ok =>
    match s.pc with
    | .areas err size todo =>
      if 0 < size then
        let s := s.sync ok
        let (offset, frames) := s.pcm_mmap_begin c size
        some { s with pc := .copying err size offset frames 0 todo }
      else none
    | _ => none
  | .copy =>
    match s.pc with
    | .copying err size pcm_offset frames done todo =>
      match todo[done]? with
      | some frame =>
        if done < frames then
          some { s with ring := Function.update s.ring (pcm_offset + done) frame
                        pc := .copying err size pcm_offset frames (done + 1) todo }
        else none
      | none => none
    | _ => none
  | .commit ok =>
    match s.pc with
    | .copying err size _ frames done todo =>
      if done = frames then some (s.commit c ok err size frames todo) else none
    | _ => none
  | .leave =>
    match s.pc with
    | .areas err 0 todo => some { s with pc := if todo = [] then .idle 0 else .updating err todo }
    | _ => none
  | .hw frames =>
    if s.running ∧
        frames + pcm_mmap_playback_avail c s.kernel_hw s.kernel_appl ≤ c.buffer_size then
      some (s.hw c frames)
    else none

end Sys

/-! ## The pointers -/

theorem growBoundary_spec {buffer_size boundary : Nat} (fuel : Nat) (hdvd : buffer_size ∣ boundary)
    (hle : boundary ≤ INT_MAX - buffer_size) :
    buffer_size ∣ growBoundary buffer_size fuel boundary ∧
    boundary ≤ growBoundary buffer_size fuel boundary ∧
    growBoundary buffer_size fuel boundary ≤ INT_MAX - buffer_size := by
  induction fuel generalizing boundary with
  | zero => exact ⟨hdvd, le_rfl, hle⟩
  | succ fuel ih =>
    unfold growBoundary
    split
    case isTrue hdouble =>
      obtain ⟨h₁, h₂, h₃⟩ := ih (hdvd.mul_right 2) hdouble
      exact ⟨h₁, by omega, h₃⟩
    case isFalse => exact ⟨hdvd, le_rfl, hle⟩

/-- The rounds suffice: the loop has ended by itself. -/
theorem growBoundary_ends {buffer_size boundary : Nat} (fuel : Nat)
    (h : INT_MAX - buffer_size < boundary * 2 ^ (fuel + 1)) :
    INT_MAX - buffer_size < growBoundary buffer_size fuel boundary * 2 := by
  induction fuel generalizing boundary with
  | zero => simpa [growBoundary] using h
  | succ fuel ih =>
    unfold growBoundary
    split
    case isTrue => exact ih (by rwa [Nat.mul_assoc, ← pow_succ'])
    case isFalse hdone => omega

namespace Config
variable (c : Config)

/-- The boundary is the greatest that the loop can reach. -/
theorem boundary_spec : c.buffer_size ∣ c.boundary ∧ 2 * c.buffer_size ≤ c.boundary ∧
    c.boundary + c.buffer_size ≤ INT_MAX ∧ INT_MAX - c.buffer_size < c.boundary * 2 := by
  have hsmall := c.small
  have hends : INT_MAX - c.buffer_size < c.boundary * 2 := by
    refine growBoundary_ends 31 ?_
    have := c.pos
    unfold INT_MAX
    omega
  have hgrow : c.boundary = growBoundary c.buffer_size 30 (c.buffer_size * 2) :=
    if_pos (by omega)
  obtain ⟨h₁, h₂, h₃⟩ := growBoundary_spec 30 (Nat.dvd_mul_right c.buffer_size 2)
    (show c.buffer_size * 2 ≤ INT_MAX - c.buffer_size by omega)
  rw [hgrow] at hends ⊢
  exact ⟨h₁, by omega, by omega, hends⟩

theorem boundary_pos : 0 < c.boundary := by
  have := c.pos
  have := c.boundary_spec
  omega

end Config

section
variable {c : Config} {p q n m : Nat}

/-- The room that the code computes. -/
theorem avail_eq (hp : Stands c.boundary p n) (hq : Stands c.boundary q m) (hnm : n ≤ m)
    (hmn : m ≤ n + c.buffer_size) :
    pcm_mmap_playback_avail c p q = c.buffer_size - (m - n) := by
  obtain ⟨-, hsize, hmax, -⟩ := c.boundary_spec
  rw [← room_eq hp hq c.pos hsize hnm hmn]
  have hp' := hp.1
  have hq' := hq.1
  have hbmod : Int.bmod ((p : Int) + c.buffer_size - q) (2 ^ 32) = p + c.buffer_size - q := by
    unfold INT_MAX at hmax
    exact Int.bmod_eq_of_le (by omega) (by omega)
  simp only [pcm_mmap_playback_avail, hbmod]
  rfl

theorem appl_forward_stands (hp : Stands c.boundary p n) {frames : Nat} (hf : frames ≤ c.buffer_size) :
    Stands c.boundary (pcm_mmap_appl_forward c p frames) (n + frames) := by
  obtain ⟨-, hsize, hmax, -⟩ := c.boundary_spec
  have hp' := hp.1
  have hmod : (p + frames) % 2 ^ 32 = p + frames := by
    unfold INT_MAX at hmax
    exact Nat.mod_eq_of_lt (by omega)
  unfold pcm_mmap_appl_forward
  rw [hmod]
  exact hp.forward (by omega)

end

/-! ## The ring -/

/-- What holds where the program is; `seen` is what it knows of the frames played. -/
def PcInv (c : Config) (s : Sys α) (seen : Nat) : Prop :=
  match s.pc with
  | .idle ret => ret = 0 → c.start_threshold ≤ c.buffer_size → s.goal = s.handed
  | .updating _ todo | .checking _ todo | .waiting todo => s.goal = s.handed ++ todo
  | .areas _ size todo => size ≤ todo.length ∧ s.goal = s.handed ++ todo
  | .copying _ size pcm_offset frames done todo =>
    pcm_offset = s.handed.length % c.buffer_size ∧ pcm_offset + frames ≤ c.buffer_size ∧
    s.handed.length + frames ≤ seen + c.buffer_size ∧ frames ≤ size ∧ size ≤ todo.length ∧
    done ≤ frames ∧ s.goal = s.handed ++ todo ∧
    ∀ d, d < done → todo[d]? = some (s.ring (pcm_offset + d))
  | .broken _ => False

/-- The pointers stand for counts of frames: `seen` and `known` are those that the program
knows played and the device knows handed over. -/
structure Inv (c : Config) (s : Sys α) (seen known : Nat) : Prop where
  kernel_hw : s.kernel_hw = s.played.length % c.boundary
  kernel_appl : Stands c.boundary s.kernel_appl known
  hw_ptr : s.hw_ptr = seen % c.boundary
  appl_ptr : Stands c.boundary s.appl_ptr s.handed.length
  seen_le : seen ≤ s.played.length
  played_le : s.played.length ≤ known
  known_le : known ≤ s.handed.length
  room : s.handed.length ≤ seen + c.buffer_size
  ring : ∀ i, s.played.length ≤ i → i < s.handed.length →
    s.handed[i]? = some (s.ring (i % c.buffer_size))
  order : s.played <+: s.handed
  fresh : s.prepared = false → s.running = false ∧ s.played = []

theorem inv_start (c : Config) (ring : Nat → α) : Inv c (Sys.start ring) 0 0 where
  kernel_hw := (Nat.zero_mod _).symm
  kernel_appl := ⟨Nat.zero_le _, rfl⟩
  hw_ptr := (Nat.zero_mod _).symm
  appl_ptr := ⟨Nat.zero_le _, rfl⟩
  seen_le := le_rfl
  played_le := le_rfl
  known_le := le_rfl
  room := Nat.zero_le _
  ring i _ hi := absurd hi (Nat.not_lt_zero i)
  order := List.prefix_rfl
  fresh _ := ⟨rfl, rfl⟩

section
variable {c : Config} {s : Sys α} {seen known : Nat}

theorem Inv.avail (h : Inv c s seen known) :
    pcm_mmap_playback_avail c s.hw_ptr s.appl_ptr = c.buffer_size - (s.handed.length - seen) := by
  have hseen : seen ≤ s.handed.length := h.seen_le.trans (h.played_le.trans h.known_le)
  rw [h.hw_ptr]
  exact avail_eq (stands_mod c.boundary_pos seen) h.appl_ptr hseen h.room

/-- A step that moves only the program. -/
theorem Inv.goto (h : Inv c s seen known) (pc : Pc α) (goal : List α) :
    Inv c { s with pc := pc, goal := goal } seen known := { h with }

theorem Inv.sync (h : Inv c s seen known) (ok : Bool) : ∃ seen' known',
    Inv c (s.sync ok) seen' known' ∧ seen ≤ seen' := by
  cases ok with
  | false => exact ⟨seen, known, h, le_rfl⟩
  | true =>
    refine ⟨s.played.length, s.handed.length, ?_, h.seen_le⟩
    have hroom : s.handed.length ≤ s.played.length + c.buffer_size :=
      h.room.trans (Nat.add_le_add_right h.seen_le _)
    exact { h with
      kernel_appl := h.appl_ptr, hw_ptr := h.kernel_hw, seen_le := le_rfl
      played_le := h.played_le.trans h.known_le, known_le := le_rfl, room := hroom }

theorem Inv.prepare (h : Inv c s seen known) : ∃ known', Inv c s.prepare seen known' := by
  unfold Sys.prepare
  split
  case isTrue => exact ⟨known, h⟩
  case isFalse hnot =>
    have hnone := (h.fresh (by simpa using hnot)).2
    refine ⟨0, { h with
      kernel_hw := ?_, kernel_appl := ⟨Nat.zero_le _, rfl⟩, played_le := ?_, known_le := Nat.zero_le _
      fresh := ?_ }⟩ <;> simp [hnone]

/-- Cells less than the buffer apart are different. -/
theorem cell_ne {i j : Nat} (hij : i < j) (hj : j < i + c.buffer_size) :
    i % c.buffer_size ≠ j % c.buffer_size := by
  intro heq
  have hmod : (j - i) % c.buffer_size = 0 := Nat.sub_mod_eq_zero_of_mod_eq heq.symm
  rw [Nat.mod_eq_of_lt (by omega)] at hmod
  omega

/-- A frame that is copied lands where nothing waits to be played. -/
theorem Inv.copy (h : Inv c s seen known) {j : Nat} (hj : s.handed.length ≤ j)
    (hroom : j < seen + c.buffer_size) (frame : α) (pc : Pc α) :
    Inv c { s with ring := Function.update s.ring (j % c.buffer_size) frame, pc := pc } seen known where
  kernel_hw := h.kernel_hw
  kernel_appl := h.kernel_appl
  hw_ptr := h.hw_ptr
  appl_ptr := h.appl_ptr
  seen_le := h.seen_le
  played_le := h.played_le
  known_le := h.known_le
  room := h.room
  ring i hi hlt := by
    have hseen := h.seen_le
    have hi : s.played.length ≤ i := hi
    have hne : i % c.buffer_size ≠ j % c.buffer_size :=
      cell_ne (Nat.lt_of_lt_of_le hlt hj) (by omega)
    simpa only [Function.update_of_ne hne] using h.ring i hi hlt
  order := h.order
  fresh := h.fresh

/-- Frames that are in the ring behind those handed over. -/
theorem Inv.hand (h : Inv c s seen known) (frames : List α)
    (hroom : s.handed.length + frames.length ≤ seen + c.buffer_size)
    (hring : ∀ d, d < frames.length →
      frames[d]? = some (s.ring ((s.handed.length + d) % c.buffer_size))) :
    Inv c { s with
      appl_ptr := pcm_mmap_appl_forward c s.appl_ptr frames.length
      handed := s.handed ++ frames } seen known where
  kernel_hw := h.kernel_hw
  kernel_appl := h.kernel_appl
  hw_ptr := h.hw_ptr
  appl_ptr := by
    have hseen : seen ≤ s.handed.length := h.seen_le.trans (h.played_le.trans h.known_le)
    rw [List.length_append]
    exact appl_forward_stands h.appl_ptr (by omega)
  seen_le := h.seen_le
  played_le := h.played_le
  known_le := by
    have := h.known_le
    rw [List.length_append]
    omega
  room := by rwa [List.length_append]
  ring i hi hlt := by
    have hlt : i < s.handed.length + frames.length := by simpa using hlt
    by_cases hold : i < s.handed.length
    · rw [List.getElem?_append_left hold]
      exact h.ring i hi hold
    · rw [List.getElem?_append_right (by omega), hring _ (by omega),
        Nat.add_sub_cancel' (by omega)]
  order := h.order.trans (List.prefix_append _ _)
  fresh := h.fresh

/-- **What the device plays.** -/
theorem Inv.hw (h : Inv c s seen known) {n : Nat} (hn : s.played.length + n ≤ known) (hrun : s.running = true) :
    Inv c (s.hw c n) seen known := by
  have hknown := h.known_le
  obtain ⟨hdvd, -, -⟩ := c.boundary_spec
  have hcell : ∀ i, (s.kernel_hw + i) % c.buffer_size = (s.played.length + i) % c.buffer_size := by
    intro i
    rw [h.kernel_hw, Nat.add_mod, Nat.mod_mod_of_dvd _ hdvd, ← Nat.add_mod]
  have hplayed : s.played ++ (List.range n).map
      (fun i => s.ring ((s.kernel_hw + i) % c.buffer_size)) = s.handed.take (s.played.length + n) := by
    rw [List.take_add, ← List.prefix_iff_eq_take.mp h.order]
    congr 1
    refine List.ext_getElem? fun i => ?_
    by_cases hi : i < n
    · rw [List.getElem?_take_of_lt hi, List.getElem?_drop, h.ring _ (by omega) (by omega),
        List.getElem?_map, List.getElem?_range hi, Option.map_some, hcell]
    · rw [List.getElem?_eq_none (by simp; omega), List.getElem?_eq_none (by simp; omega)]
  have hlength : (s.handed.take (s.played.length + n)).length = s.played.length + n := by
    rw [List.length_take]
    omega
  refine { h with
    kernel_hw := ?_, seen_le := ?_, played_le := ?_, ring := ?_, order := ?_, fresh := ?_ } <;>
    simp only [Sys.hw, hplayed, hlength]
  · rw [h.kernel_hw, Nat.mod_add_mod]
  · have := h.seen_le
    omega
  · exact hn
  · exact fun i hi hlt => h.ring i (by omega) hlt
  · exact List.take_prefix _ _
  · intro hfresh
    rw [(h.fresh hfresh).1] at hrun
    cases hrun

/-! ## Steps -/

/-- A session is sound, or it has ended in an error of `pcm_wait`. -/
def Good (c : Config) (s : Sys α) : Prop :=
  (∃ seen known, Inv c s seen known ∧ PcInv c s seen) ∨
  ((∃ err, s.pc = .broken err) ∧ s.running = false ∧ s.played <+: s.handed)

theorem Inv.good (h : Inv c s seen known) (pc : Pc α) {goal : List α}
    (hpc : PcInv c { s with pc := pc, goal := goal } seen) :
    Good c { s with pc := pc, goal := goal } :=
  .inl ⟨seen, known, h.goto pc goal, hpc⟩

@[simp] theorem sync_handed (s : Sys α) (ok : Bool) : (s.sync ok).handed = s.handed := by
  cases ok <;> rfl

@[simp] theorem sync_goal (s : Sys α) (ok : Bool) : (s.sync ok).goal = s.goal := by
  cases ok <;> rfl

@[simp] theorem sync_pc (s : Sys α) (ok : Bool) : (s.sync ok).pc = s.pc := by cases ok <;> rfl

@[simp] theorem sync_ring (s : Sys α) (ok : Bool) : (s.sync ok).ring = s.ring := by
  cases ok <;> rfl

@[simp] theorem prepare_handed (s : Sys α) : s.prepare.handed = s.handed := by
  unfold Sys.prepare
  split <;> rfl

@[simp] theorem prepare_goal (s : Sys α) : s.prepare.goal = s.goal := by
  unfold Sys.prepare
  split <;> rfl

/-- A round that finds no room waits, unless it could not have been started. -/
theorem Inv.transfer (h : Inv c s seen known) {avail err : Int} {todo : List α}
    (hgoal : s.goal = s.handed ++ todo)
    (hstart : s.running = false → c.buffer_size - avail < c.start_threshold) :
    Good c (s.transfer avail err todo) := by
  unfold Sys.transfer
  split
  case isTrue => exact h.good _ hgoal
  case isFalse hrun =>
    split
    case isTrue hnone =>
      refine h.good (.idle 0) fun _ hthreshold => ?_
      have hempty : todo = [] := by
        by_contra hne
        have hlength := List.length_pos_iff.mpr hne
        have hrunning : s.running = false := by
          by_contra hrunning
          unfold avail_min at hrun
          refine hrun ⟨by simpa using hrunning, by omega⟩
        have := hstart hrunning
        omega
      simpa [hempty] using hgoal
    case isFalse => exact h.good (.areas _ _ _) ⟨by omega, hgoal⟩

theorem Inv.check (h : Inv c s seen known) {prepared synced started : Bool} {errno : Nat}
    (herr : 0 < errno) {err : Int} {todo : List α} (hgoal : s.goal = s.handed ++ todo) :
    Good c (s.check c prepared synced started errno err todo) := by
  have havail := h.avail
  have hroom := h.room
  have hseen : seen ≤ s.handed.length := h.seen_le.trans (h.played_le.trans h.known_le)
  have hmax := c.boundary_spec.2.2
  have hfails : ∀ s' : Sys α, (∃ seen known, Inv c s' seen known) →
      Good c { s' with pc := .idle (-errno) } := by
    rintro s' ⟨seen', known', h'⟩
    exact h'.good (.idle _) fun hzero => absurd hzero (by omega)
  unfold Sys.check
  simp only
  rw [if_neg (by omega)]
  split
  case isTrue =>
    unfold Sys.pcm_start
    split
    case h_1 => exact hfails s ⟨seen, known, h⟩
    case h_2 s' hs =>
      obtain ⟨-, hs⟩ := Option.ite_none_right_eq_some.mp hs
      cases hs
      obtain ⟨known₁, hprepare⟩ := h.prepare
      obtain ⟨seen₂, known₂, hsync, -⟩ := hprepare.sync synced
      split
      case isTrue =>
        have hprep : (s.prepare.sync synced).prepared = true := by
          cases synced <;> simp [Sys.sync, Sys.prepare] <;> split <;> simp_all
        have hrunning : Inv c { s.prepare.sync synced with running := true } seen₂ known₂ :=
          { hsync with fresh := fun hnot => by simp [hprep] at hnot }
        exact hrunning.transfer (by simpa using hgoal) (by simp)
      case isFalse => exact hfails _ ⟨seen₂, known₂, hsync⟩
  case isFalse hnot =>
    refine h.transfer hgoal fun hrunning => ?_
    have hlow : ¬ ((c.buffer_size : Int) -
        pcm_mmap_playback_avail c s.hw_ptr s.appl_ptr) % 2 ^ 32 ≥ c.start_threshold :=
      fun hge => hnot ⟨hrunning, hge⟩
    unfold INT_MAX at hmax
    omega

theorem Inv.begin (h : Inv c s seen known) {err : Int} {size : Nat} {todo : List α}
    (hsize : size ≤ todo.length) (hgoal : s.goal = s.handed ++ todo) :
    Good c { s with
      pc := .copying err size (s.pcm_mmap_begin c size).1 (s.pcm_mmap_begin c size).2 0 todo } := by
  have havail := h.avail
  have hroom := h.room
  have hseen : seen ≤ s.handed.length := h.seen_le.trans (h.played_le.trans h.known_le)
  have hcell := h.appl_ptr.cell c.boundary_spec.1
  have hlt := Nat.mod_lt s.handed.length c.pos
  have hmax := c.boundary_spec.2.2
  have hnat : (pcm_mmap_playback_avail c s.hw_ptr s.appl_ptr % 2 ^ 32).toNat =
      c.buffer_size - (s.handed.length - seen) := by
    rw [havail]
    unfold INT_MAX at hmax
    omega
  refine .inl ⟨seen, known, h.goto _ s.goal, ?_⟩
  simp only [PcInv, Sys.pcm_mmap_begin, hnat, hcell]
  refine ⟨trivial, by omega, by omega, by omega, hsize, Nat.zero_le _, hgoal, ?_⟩
  exact fun d hd => absurd hd (Nat.not_lt_zero d)

/-- The cells that `pcm_mmap_begin` has chosen. -/
theorem cell_add {d frames : Nat} (hfit : n % c.buffer_size + frames ≤ c.buffer_size) (hd : d < frames) :
    (n + d) % c.buffer_size = n % c.buffer_size + d := by
  rw [← Nat.mod_add_mod, Nat.mod_eq_of_lt (by omega)]

theorem good_copy (h : Inv c s seen known) {err : Int} {size pcm_offset frames done : Nat}
    {todo : List α} {frame : α} (hs : s.pc = .copying err size pcm_offset frames done todo)
    (hpc : PcInv c s seen) (hframe : todo[done]? = some frame) (hdone : done < frames) :
    Good c { s with ring := Function.update s.ring (pcm_offset + done) frame
                    pc := .copying err size pcm_offset frames (done + 1) todo } := by
  simp only [PcInv, hs] at hpc
  obtain ⟨rfl, hfit, hroom, hframes, hsize, -, hgoal, hcopied⟩ := hpc
  refine .inl ⟨seen, known, ?_, rfl, hfit, hroom, hframes, hsize, hdone, hgoal, fun d hd => ?_⟩
  · rw [← cell_add hfit hdone]
    exact h.copy (Nat.le_add_right _ _) (by omega) frame _
  · show todo[d]? = some (Function.update s.ring _ frame _)
    by_cases hlast : d = done
    · rw [hlast, Function.update_self, hframe]
    · rw [Function.update_of_ne (by omega)]
      exact hcopied d (by omega)

theorem good_commit (h : Inv c s seen known) {err : Int} {size pcm_offset frames : Nat}
    {todo : List α} (hs : s.pc = .copying err size pcm_offset frames frames todo)
    (hpc : PcInv c s seen) (ok : Bool) : Good c (s.commit c ok err size frames todo) := by
  simp only [PcInv, hs] at hpc
  obtain ⟨rfl, hfit, hroom, hframes, hsize, -, hgoal, hcopied⟩ := hpc
  have hlength : (todo.take frames).length = frames := by
    rw [List.length_take]
    omega
  have hhand := h.hand (todo.take frames) (by rwa [hlength]) fun d hd => by
    rw [hlength] at hd
    rw [List.getElem?_take_of_lt hd, cell_add hfit hd]
    exact hcopied d hd
  rw [hlength] at hhand
  obtain ⟨seen', known', hsync, -⟩ := hhand.sync ok
  refine .inl ⟨seen', known', hsync.goto _ _, ?_⟩
  cases ok with
  | true =>
    refine ⟨?_, ?_⟩
    · rw [List.length_drop]
      omega
    · simp [Sys.commit, hgoal]
  | false =>
    intro hzero
    simp at hzero

theorem good_next (h : Good c s) {a : Act α} {s' : Sys α} (hs : s.next c a = some s') : Good c s' := by
  rcases h with ⟨seen, known, h, hpc⟩ | ⟨⟨err, hbroken⟩, hrunning, -⟩
  case inr => cases a <;> simp [Sys.next, hbroken, hrunning] at hs
  cases a with
  | pcm_mmap_write frames =>
    simp only [Sys.next] at hs
    split at hs
    case h_1 ret hidle =>
      obtain ⟨-, hs⟩ := Option.ite_none_right_eq_some.mp hs
      cases hs
      refine h.good _ ?_
      by_cases hnone : frames = []
      · simp [PcInv, hnone]
      · simp [PcInv, hnone]
    case h_2 => cases hs
  | update ok =>
    simp only [Sys.next] at hs
    split at hs <;> cases hs
    case h_1 err todo hup =>
      obtain ⟨seen', known', hsync, -⟩ := h.sync ok
      simp only [PcInv, hup] at hpc
      exact hsync.good (.checking _ _) (by simpa [PcInv] using hpc)
  | check ok prepared synced started errno =>
    simp only [Sys.next] at hs
    split at hs
    case h_1 err todo hcheck =>
      obtain ⟨herr, hs⟩ := Option.ite_none_right_eq_some.mp hs
      cases hs
      obtain ⟨seen', known', hsync, -⟩ := h.sync ok
      simp only [PcInv, hcheck] at hpc
      exact hsync.check herr (by simpa using hpc)
    case h_2 => cases hs
  | wait err =>
    simp only [Sys.next] at hs
    split at hs
    case h_1 todo hwait =>
      simp only [PcInv, hwait] at hpc
      split at hs <;> cases hs
      case isTrue => exact .inr ⟨⟨err, rfl⟩, rfl, h.order⟩
      case isFalse => exact h.good (.updating err todo) hpc
    case h_2 => cases hs
  | begin ok =>
    simp only [Sys.next] at hs
    split at hs
    case h_1 err size todo hareas =>
      obtain ⟨-, hs⟩ := Option.ite_none_right_eq_some.mp hs
      cases hs
      obtain ⟨seen', known', hsync, -⟩ := h.sync ok
      simp only [PcInv, hareas] at hpc
      exact hsync.begin hpc.1 (by simpa using hpc.2)
    case h_2 => cases hs
  | copy =>
    simp only [Sys.next] at hs
    split at hs
    case h_1 err size pcm_offset frames done todo hcopying =>
      split at hs
      case h_1 frame hframe =>
        obtain ⟨hdone, hs⟩ := Option.ite_none_right_eq_some.mp hs
        cases hs
        exact good_copy h hcopying hpc hframe hdone
      case h_2 => cases hs
    case h_2 => cases hs
  | commit ok =>
    simp only [Sys.next] at hs
    split at hs
    case h_1 err size pcm_offset frames done todo hcopying =>
      obtain ⟨rfl, hs⟩ := Option.ite_none_right_eq_some.mp hs
      cases hs
      exact good_commit h hcopying hpc ok
    case h_2 => cases hs
  | leave =>
    simp only [Sys.next] at hs
    split at hs <;> cases hs
    case h_1 err todo hareas =>
      simp only [PcInv, hareas] at hpc
      refine h.good _ ?_
      by_cases hnone : todo = []
      · simpa [PcInv, hnone] using fun _ => hpc.2
      · simpa [PcInv, hnone] using hpc.2
  | hw n =>
    obtain ⟨⟨hrun, hn⟩, hs⟩ := Option.ite_none_right_eq_some.mp hs
    cases hs
    have hknown := h.known_le
    have hroom := h.room
    have hseen := h.seen_le
    rw [h.kernel_hw, avail_eq (stands_mod c.boundary_pos _) h.kernel_appl h.played_le (by omega)] at hn
    have hplayed := h.played_le
    exact .inl ⟨seen, known, h.hw (by omega) hrun, hpc⟩

end

/-- The sessions of a PCM, from `pcm_open` to the first error of `pcm_wait`.  What the code
does after that error is no longer a run: it starts over at an empty ring and drops the frames
that are in it. -/
abbrev Run (c : Config) (ring : Nat → α) : Sys α → Prop :=
  Reachable (· = Sys.start ring) (fun s a s' => s.next c a = some s') (fun _ _ => True)

theorem good_run {c : Config} {ring : Nat → α} {s : Sys α} (h : Run c ring s) : Good c s := by
  refine h.invariant ?_ fun s a s' hs _ hnext => good_next hs hnext
  rintro s rfl
  exact .inl ⟨0, 0, inv_start c ring, fun _ _ => rfl⟩

/-- **In order.**  What the device has played is the beginning of what was handed over; and a
copy stays inside the ring, on cells that no frame still to be played has. -/
theorem played_in_order {c : Config} {ring : Nat → α} {s : Sys α} (h : Run c ring s) :
    s.played <+: s.handed ∧
    ∀ err size pcm_offset frames done todo, s.pc = .copying err size pcm_offset frames done todo →
      pcm_offset + frames ≤ c.buffer_size ∧
      ∀ i, s.played.length ≤ i → i < s.handed.length →
        s.handed[i]? = some (s.ring (i % c.buffer_size)) ∧
        ∀ d, d < frames → i % c.buffer_size ≠ pcm_offset + d := by
  rcases good_run h with ⟨seen, known, hinv, hpc⟩ | ⟨⟨err, hbroken⟩, -, horder⟩
  · refine ⟨hinv.order, fun err size pcm_offset frames done todo hcopying => ?_⟩
    simp only [PcInv, hcopying] at hpc
    obtain ⟨rfl, hfit, hroom, -⟩ := hpc
    refine ⟨hfit, fun i hi hlt => ⟨hinv.ring i hi hlt, fun d hd => ?_⟩⟩
    have hseen := hinv.seen_le
    rw [← cell_add hfit hd]
    exact cell_ne (by omega) (by omega)
  · refine ⟨horder, fun err' size pcm_offset frames done todo hcopying => ?_⟩
    rw [hbroken] at hcopying
    cases hcopying

/-- A ring of two frames that starts when it is full, and three frames written to it. -/
def smallRing : Config := ⟨2, 2, by decide, by decide⟩

def smallWrite : List (Act Nat) :=
  [.pcm_mmap_write [7, 8, 9], .update true, .check true true true true 1, .begin true, .copy, .copy,
   .commit true, .leave, .update true, .check true true true true 1, .hw 1, .wait 1, .update true,
   .check true true true true 1, .begin true, .copy, .hw 1, .commit true, .leave]

/-- Before the last copy. -/
theorem played_in_order_small : ∃ s : Sys Nat, s.pc = .copying 1 1 0 1 0 [9] ∧
    s.played <+: s.handed ∧
    ∀ err size pcm_offset frames done todo, s.pc = .copying err size pcm_offset frames done todo →
      pcm_offset + frames ≤ smallRing.buffer_size ∧
      ∀ i, s.played.length ≤ i → i < s.handed.length →
        s.handed[i]? = some (s.ring (i % smallRing.buffer_size)) ∧
        ∀ d, d < frames → i % smallRing.buffer_size ≠ pcm_offset + d := by
  have hrun : Run smallRing (fun _ => 0) _ := reachable_foldlM (smallWrite.take 15) (.start rfl) rfl
  exact ⟨_, rfl, played_in_order hrun⟩

/-- **Complete.**  A write that returns zero has handed over all of its frames. -/
theorem write_complete {c : Config} {ring : Nat → α} {s : Sys α} (h : Run c ring s)
    (hthreshold : c.start_threshold ≤ c.buffer_size) (hidle : s.pc = .idle 0) : s.goal = s.handed := by
  rcases good_run h with ⟨seen, known, -, hpc⟩ | ⟨⟨err, hbroken⟩, -, -⟩
  · simp only [PcInv, hidle] at hpc
    exact hpc trivial hthreshold
  · rw [hbroken] at hidle
    cases hidle

/-- The three frames are handed over, and two of them played. -/
theorem write_complete_small : ∃ s : Sys Nat, s.pc = .idle 0 ∧ s.goal = [7, 8, 9] ∧
    s.played = [7, 8] ∧ s.goal = s.handed := by
  have hrun : Run smallRing (fun _ => 0) _ := reachable_foldlM smallWrite (.start rfl) rfl
  exact ⟨_, rfl, rfl, rfl, write_complete hrun (by decide) rfl⟩

end MochaHal.Audio.Mmap
