import MochaHal.Thermal.Temperatures

/-! `get_cooling_devices` and `get_cpu_usages`, asked for a number and asked to fill a list.
The loop over the cooling devices runs to the size of the list and not to the end of the
table, and the one over the CPUs to the end of `/proc/stat` (`cooling_and_usages_iff`). -/

namespace MochaHal.Thermal

open MochaHal.Decimal MochaHal.Entries

def RPM_FAN_FILE : String := "/sys/kernel/debug/tegra_fan/cur_rpm"

def CPU_LABEL : String := "CPU"

def EIO : Int := 5

/-! ## Cooling devices -/

/-- `errno` after a call that failed. -/
structure Errno where
  code : Nat
  pos : 0 < code

/-- A file that is not there, one that is there and cannot be opened, and one that can. -/
inductive FileState (φ : Type)
  | missing (errno : Errno)
  | locked (errno : Errno)
  | holds (scan : Scan φ)

/-- What `stat` says. -/
def FileState.exists {φ : Type} : FileState φ → Bool
  | .missing _ => false
  | .locked _ => true
  | .holds _ => true

/-- `cooling_device_t`. -/
structure CoolingDevice (φ : Type) where
  type : Option CoolingType
  name : Option String
  current_value : φ
  deriving DecidableEq

/-- How a call ends, and the descriptors it read. -/
structure CoolingRun (φ : Type) extends Filled (CoolingDevice φ) where
  read : List Nat

section

variable {φ : Type} (fl : Floats φ) (files : String → FileState φ)

def coolingFile (d : CoolingDesc) : String := bounded (d.cooling_path.getD RPM_FAN_FILE)

/-- The number that answers a null list. -/
def countCooling (descs : List CoolingDesc) : Nat := descs.countP fun d => (files (coolingFile d)).exists

/-- The loop from a descriptor on, for a number of slots.  What a descriptor behind the table
holds is not known. -/
def readCooling : Nat → List CoolingDesc → Nat → OutArray (CoolingDevice φ) → List Nat → CoolingRun φ
  | 0, _, count, list, read => ⟨⟨some count, list⟩, read⟩
  | _ + 1, [], count, list, read => ⟨⟨none, list⟩, read ++ [count]⟩
  | n + 1, d :: rest, count, list, read =>
    match files (coolingFile d) with
    | .missing errno => ⟨⟨some (-errno.code), list⟩, read ++ [count]⟩
    | .locked errno => ⟨⟨some (-errno.code), list⟩, read ++ [count]⟩
    | .holds (.value rpm) => readCooling n rest (count + 1) (list.put count ⟨d.type, d.name, rpm⟩) (read ++ [count])
    | .holds _ => ⟨⟨some (-ENOENT), list⟩, read ++ [count]⟩

/-- `get_cooling_devices`, with a null list or with one of a size. -/
def getCoolingDevices (call : Call) (null : Bool) (size : Nat) (g : Globals φ) : CoolingRun φ × Globals φ :=
  match configure fl call g with
  | .error (.error code, g) => (⟨⟨some code, .untouched⟩, []⟩, g)
  | .error (.crash, g) => (⟨⟨none, .untouched⟩, []⟩, g)
  | .ok g =>
    match countedEntries g.cooling_data with
    | none => (⟨⟨none, .untouched⟩, []⟩, g)
    | some descs =>
      if null then (⟨⟨some (countCooling files descs), .untouched⟩, List.range descs.length⟩, g)
      else if size = 0 then (⟨⟨some (-ENOMEM), .untouched⟩, []⟩, g)
      else (readCooling files (toInt size).toNat descs 0 .untouched [], g)

end

/-! ## CPUs -/

/-- `cpu_usage_t`. -/
structure CpuUsage where
  name : String
  active : UInt64
  total : UInt64
  is_online : Bool
  deriving DecidableEq

/-- What `get_cpu_usages` finds: `/proc/stat`, the files that say whether a CPU is online,
and `errno` where a line is refused. -/
structure CpuFiles where
  stat : Except Errno String
  online : String → Option (Scan Int)
  errno : List Char → Nat

/-- A line that begins with `cpu[0-9]`. -/
def isCpuLine (line : List Char) : Bool :=
  "cpu".toList.isPrefixOf line ∧ (line.drop 3).head?.any Char.isDigit

/-- `%d`. -/
def scanInt (text : List Char) : Option (Int × List Char) :=
  (scanNumber text).map fun p => (toInt (max (-2 ^ 63) (min (2 ^ 63 - 1) p.1)), p.2)

/-- `SCNu64`. -/
def scanU64 (text : List Char) : Option (UInt64 × List Char) :=
  (scanNumber text).map fun p => (if p.1.natAbs < 2 ^ 64 then UInt64.ofInt p.1 else UInt64.ofNat (2 ^ 64 - 1), p.2)

/-- The number of the CPU and its active and idle times, if all five numbers are there. -/
def scanCpuLine (line : List Char) : Option (Int × UInt64 × UInt64) := do
  let (cpu_num, text) ← scanInt (line.drop 3)
  let (user, text) ← scanU64 text
  let (nice, text) ← scanU64 text
  let (system, text) ← scanU64 text
  let (idle, _) ← scanU64 text
  return (cpu_num, user + nice + system, idle)

def cpuOnlineFile (cpu_num : Int) : String :=
  bounded ("/sys/devices/system/cpu/cpu" ++ String.ofList (intDecimal cpu_num) ++ "/online")

section

variable (cpus : CpuFiles)

/-- An entry of a line.  A CPU without a file is online if it is the first one. -/
def readCpuLine (line : List Char) : Except Int CpuUsage :=
  let refused := if cpus.errno line ≠ 0 then -(cpus.errno line : Int) else - EIO
  match scanCpuLine line with
  | none => .error refused
  | some (cpu_num, active, idle) =>
    match cpus.online (cpuOnlineFile cpu_num) with
    | none => .ok ⟨CPU_LABEL, active, active + idle, cpu_num = 0⟩
    | some (.value online) => .ok ⟨CPU_LABEL, active, active + idle, online ≠ 0⟩
    | some _ => .error refused

def readCpuLines : List (List Char) → Nat → OutArray CpuUsage → Filled CpuUsage
  | [], size, list => ⟨some size, list⟩
  | line :: rest, size, list =>
    if isCpuLine line then
      match readCpuLine cpus line with
      | .error code => ⟨some code, list⟩
      | .ok usage => readCpuLines rest (size + 1) (list.put size usage)
    else readCpuLines rest size list

variable {φ : Type} (fl : Floats φ)

/-- `get_cpu_usages`, with a null list or with one. -/
def getCpuUsages (call : Call) (null : Bool) (g : Globals φ) : Filled CpuUsage × Globals φ :=
  match configure fl call g with
  | .error (.error code, g) => (⟨some code, .untouched⟩, g)
  | .error (.crash, g) => (⟨none, .untouched⟩, g)
  | .ok g =>
    if null then (⟨g.num_cpus_total, .untouched⟩, g)
    else
      match cpus.stat with
      | .error errno => (⟨some (-errno.code), .untouched⟩, g)
      | .ok content => (readCpuLines cpus (content.toList.splitOn '\n') 0 .untouched, g)

end

/-! ## What the loops do -/

section

variable {φ : Type} {files : String → FileState φ} {descs : List CoolingDesc}

/-- A descriptor with a file that holds a number. -/
def Holds (files : String → FileState φ) (d : CoolingDesc) : Prop :=
  ∃ rpm, files (coolingFile d) = .holds (.value rpm)

theorem Holds.exists {d : CoolingDesc} (h : Holds files d) : (files (coolingFile d)).exists = true := by
  obtain ⟨rpm, h⟩ := h
  rw [h]
  rfl

/-- The loop over as many descriptors as it has slots. -/
theorem readCooling_ok {n : Nat} {count : Nat} {list : OutArray (CoolingDevice φ)} {read : List Nat}
    (hn : n ≤ descs.length) (h : ∀ d ∈ descs.take n, Holds files d) :
    ∃ es : List (CoolingDevice φ),
      readCooling files n descs count list read =
          ⟨⟨some ((count + n : Nat) : Int), list.place count es⟩, read ++ List.range' count n⟩ ∧
        es.map (fun e => (e.type, e.name)) = (descs.take n).map fun d => (d.type, d.name) := by
  induction n generalizing descs count list read with
  | zero =>
    refine ⟨[], ?_, rfl⟩
    rw [OutArray.place_nil, List.range'_zero, List.append_nil]
    rfl
  | succ n ih =>
    cases descs with
    | nil => cases hn
    | cons d rest =>
      rw [List.take_succ_cons, List.forall_mem_cons] at h
      obtain ⟨⟨rpm, hrpm⟩, hrest⟩ := h
      obtain ⟨es, hes, hmap⟩ := @ih rest (count + 1) (list.put count ⟨d.type, d.name, rpm⟩) (read ++ [count])
        (Nat.le_of_succ_le_succ hn) hrest
      refine ⟨⟨d.type, d.name, rpm⟩ :: es, ?_, ?_⟩
      · unfold readCooling
        rw [hrpm]
        dsimp only
        rw [hes, OutArray.place_cons, List.append_assoc, List.singleton_append, ← List.range'_succ, Nat.add_right_comm,
          Nat.add_assoc]
      · rw [List.take_succ_cons, List.map_cons, List.map_cons, hmap]

/-- A file that does not hold a number ends the loop. -/
theorem readCooling_stops {n : Nat} {count : Nat} {list : OutArray (CoolingDevice φ)} {read : List Nat}
    (h : ∃ d ∈ descs.take n, ¬ Holds files d) :
    ∃ code, code < 0 ∧ (readCooling files n descs count list read).ret = some code ∧
      ∀ k ∈ (readCooling files n descs count list read).read, k ∈ read ∨ k < count + descs.length := by
  induction n generalizing descs count list read with
  | zero =>
    obtain ⟨d, hd, -⟩ := h
    cases hd
  | succ n ih =>
    cases descs with
    | nil =>
      obtain ⟨d, hd, -⟩ := h
      cases hd
    | cons d rest =>
      have hread : ∀ k ∈ read ++ [count], k ∈ read ∨ k < count + (d :: rest).length := fun k hk => by
        refine (List.mem_append.mp hk).imp_right fun hk => ?_
        rw [List.mem_singleton.mp hk]
        exact Nat.lt_add_of_pos_right (Nat.succ_pos _)
      unfold readCooling
      cases hfile : files (coolingFile d) with
      | missing errno => exact ⟨_, by have := errno.pos; omega, rfl, hread⟩
      | locked errno => exact ⟨_, by have := errno.pos; omega, rfl, hread⟩
      | holds scan =>
        cases scan with
        | mismatch => exact ⟨_, by decide, rfl, hread⟩
        | eof => exact ⟨_, by decide, rfl, hread⟩
        | value rpm =>
          obtain ⟨d', hd', hnot⟩ := h
          rw [List.take_succ_cons] at hd'
          have hrest : d' ∈ rest.take n :=
            (List.mem_cons.mp hd').resolve_left fun heq => hnot (heq ▸ ⟨rpm, hfile⟩)
          obtain ⟨code, hcode, hret, hinside⟩ := @ih rest (count + 1) (list.put count ⟨d.type, d.name, rpm⟩)
            (read ++ [count]) ⟨d', hrest, hnot⟩
          refine ⟨code, hcode, hret, fun k hk => ?_⟩
          rcases hinside k hk with hk | hk
          · exact hread k hk
          · rw [List.length_cons]
            exact .inr (by omega)

/-- More slots than descriptors, and every file holds a number. -/
theorem readCooling_behind {n : Nat} {count : Nat} {list : OutArray (CoolingDevice φ)} {read : List Nat}
    (hn : descs.length < n) (h : ∀ d ∈ descs, Holds files d) :
    count + descs.length ∈ (readCooling files n descs count list read).read := by
  induction descs generalizing n count list read with
  | nil =>
    cases n with
    | zero => cases hn
    | succ n => exact List.mem_append_right read (List.mem_singleton.mpr rfl)
  | cons d rest ih =>
    cases n with
    | zero => cases hn
    | succ n =>
      obtain ⟨⟨rpm, hrpm⟩, hrest⟩ := List.forall_mem_cons.mp h
      have hmem := @ih n (count + 1) (list.put count ⟨d.type, d.name, rpm⟩) (read ++ [count])
        (Nat.lt_of_succ_lt_succ hn) hrest
      unfold readCooling
      rw [hrpm]
      dsimp only
      rwa [List.length_cons, Nat.add_comm rest.length, ← Nat.add_assoc]

/-- Nothing is read behind the table. -/
def ReadsInside (descs : List CoolingDesc) (run : CoolingRun φ) : Prop := ∀ k ∈ run.read, k < descs.length

/-- The list holds the devices whose files exist, in the order of the table. -/
def ReturnsExisting (files : String → FileState φ) (descs : List CoolingDesc) (run : CoolingRun φ) : Prop :=
  ∃ es : List (CoolingDevice φ), run.ret = some (es.length : Int) ∧ (∀ k, run.list k = es[k]?) ∧
    es.map (fun e => (e.type, e.name)) =
      (descs.filter fun d => (files (coolingFile d)).exists).map fun d => (d.type, d.name)

theorem readsInside_iff {n : Nat} :
    ReadsInside descs (readCooling files n descs 0 .untouched []) ↔
      n ≤ descs.length ∨ ∃ d ∈ descs, ¬ Holds files d := by
  constructor
  · intro hinside
    by_contra hnot
    obtain ⟨hn, hall⟩ := not_or.mp hnot
    have hholds : ∀ d ∈ descs, Holds files d := fun d hd => by
      by_contra hd'
      exact hall ⟨d, hd, hd'⟩
    have := hinside _ (readCooling_behind (Nat.lt_of_not_le hn) hholds)
    omega
  · intro h
    by_cases hstop : ∃ d ∈ descs.take n, ¬ Holds files d
    · obtain ⟨code, -, -, hread⟩ := @readCooling_stops φ files descs n 0 .untouched [] hstop
      intro k hk
      exact Nat.zero_add descs.length ▸ (hread k hk).resolve_left List.not_mem_nil
    · have hall : ∀ d ∈ descs.take n, Holds files d := fun d hd => by
        by_contra hd'
        exact hstop ⟨d, hd, hd'⟩
      have hn : n ≤ descs.length := by
        by_contra hn
        rw [List.take_of_length_le (by omega)] at hstop
        exact hstop (h.resolve_left hn)
      obtain ⟨es, hes, -⟩ := @readCooling_ok φ files descs n 0 .untouched [] hn hall
      intro k hk
      rw [hes, List.nil_append, List.mem_range'_1] at hk
      omega

theorem returnsExisting_iff {n : Nat} (hn : n = countCooling files descs) :
    ReturnsExisting files descs (readCooling files n descs 0 .untouched []) ↔ ∀ d ∈ descs.take n, Holds files d := by
  constructor
  · rintro ⟨es, hret, -, -⟩
    by_contra hall
    obtain ⟨d, hd⟩ := not_forall.mp hall
    obtain ⟨hd, hnot⟩ := Classical.not_imp.mp hd
    obtain ⟨code, hcode, hret', -⟩ := @readCooling_stops φ files descs n 0 .untouched [] ⟨d, hd, hnot⟩
    have := Option.some.inj (hret.symm.trans hret')
    omega
  · intro hall
    obtain ⟨es, hes, hmap⟩ := @readCooling_ok φ files descs n 0 .untouched []
      (hn ▸ List.countP_le_length) hall
    have hlength : es.length = n := by
      have := congrArg List.length hmap
      rw [List.length_map, List.length_map, List.length_take_of_le (hn ▸ List.countP_le_length)] at this
      exact this
    refine ⟨es, ?_, fun k => ?_, ?_⟩
    · rw [hes, hlength, Nat.zero_add]
    · rw [hes]
      exact OutArray.place_untouched es k
    · rw [hmap, hn]
      exact congrArg _ (filter_eq_take fun d hd => (hall d (hn ▸ hd)).exists).symm

end

section

variable {cpus : CpuFiles}

/-- The lines of CPUs up to the first one that is refused. -/
def acceptedLines (cpus : CpuFiles) (content : String) : List (List Char) :=
  ((content.toList.splitOn '\n').filter isCpuLine).takeWhile fun line => (readCpuLine cpus line).isOk

/-- At most so many entries are written. -/
def WritesAtMost {α : Type} (r : Filled α) (count : Int) : Prop :=
  ∃ es : List α, (∀ k, r.list k = es[k]?) ∧ (es.length : Int) ≤ count

theorem writesAtMost_iff {α : Type} {r : Filled α} {es : List α} (h : ∀ k, r.list k = es[k]?) {count : Int} :
    WritesAtMost r count ↔ (es.length : Int) ≤ count := by
  constructor
  · rintro ⟨es', h', hle⟩
    have : es = es' := List.ext_getElem? fun k => (h k).symm.trans (h' k)
    rwa [this]
  · exact fun hle => ⟨es, h, hle⟩

theorem readCpuLines_list (lines : List (List Char)) (size : Nat) (list : OutArray CpuUsage) :
    ∃ es : List CpuUsage, (readCpuLines cpus lines size list).list = list.place size es ∧
      es.length = ((lines.filter isCpuLine).takeWhile fun line => (readCpuLine cpus line).isOk).length := by
  induction lines generalizing size list with
  | nil => exact ⟨[], OutArray.place_nil.symm, rfl⟩
  | cons line rest ih =>
    unfold readCpuLines
    by_cases hline : isCpuLine line = true
    · rw [if_pos hline, List.filter_cons_of_pos hline, List.takeWhile_cons]
      cases hread : readCpuLine cpus line with
      | error code => exact ⟨[], OutArray.place_nil.symm, rfl⟩
      | ok usage =>
        obtain ⟨es, hes, hlength⟩ := ih (size + 1) (list.put size usage)
        exact ⟨usage :: es, hes.trans (OutArray.place_cons usage es), congrArg (· + 1) hlength⟩
    · rw [if_neg hline, List.filter_cons_of_neg hline]
      exact ih size list

end

/-! ## The calls and their lists -/

section

variable {φ : Type} {fl : Floats φ} {files : String → FileState φ} {cpus : CpuFiles} {call : Call} {g g' : Globals φ}
  {descs : List CoolingDesc}

theorem getCoolingDevices_eq (hconf : configure fl call g = .ok g')
    (htable : countedEntries g'.cooling_data = some descs)
    (size : Nat) :
    (getCoolingDevices fl files call false size g).1 =
      if size = 0 then ⟨⟨some (-ENOMEM), .untouched⟩, []⟩
      else readCooling files (toInt size).toNat descs 0 .untouched [] := by
  unfold getCoolingDevices
  rw [hconf]
  dsimp only
  rw [htable]
  dsimp only
  rw [if_neg Bool.false_ne_true, apply_ite Prod.fst]

theorem getCpuUsages_null (hconf : configure fl call g = .ok g') :
    (getCpuUsages cpus fl call true g).1.ret = g'.num_cpus_total := by
  unfold getCpuUsages
  rw [hconf]
  rfl

/-- The number of entries is the number of lines that are accepted. -/
theorem getCpuUsages_list (hconf : configure fl call g = .ok g') :
    ∃ es : List CpuUsage, (∀ k, (getCpuUsages cpus fl call false g).1.list k = es[k]?) ∧
      es.length = (cpus.stat.toOption.elim [] (acceptedLines cpus)).length := by
  unfold getCpuUsages
  rw [hconf]
  dsimp only
  rw [if_neg Bool.false_ne_true]
  cases cpus.stat with
  | error errno => exact ⟨[], fun k => rfl, rfl⟩
  | ok content =>
    obtain ⟨es, hes, hlength⟩ := @readCpuLines_list cpus (content.toList.splitOn '\n') 0 .untouched
    refine ⟨es, fun k => ?_, ?_⟩
    · dsimp only
      rw [hes, OutArray.place_untouched]
    · rw [hlength]
      rfl

/-- Where the number that was announced and the list that is filled agree.  The count of the
table is an `int`. -/
theorem cooling_and_usages_iff (fl : Floats φ) (files : String → FileState φ) (cpus : CpuFiles) (call : Call)
    (g g' : Globals φ) (descs : List CoolingDesc) (size : Nat) (hconf : configure fl call g = .ok g')
    (htable : countedEntries g'.cooling_data = some descs) (hcount : (descs.length : Int) ≤ INT_MAX) :
    (ReadsInside descs (getCoolingDevices fl files call false size g).1 ∧
        (some (size : Int) = (getCoolingDevices fl files call true size g).1.ret →
          ReturnsExisting files descs (getCoolingDevices fl files call false size g).1) ∧
        ∃ count, (getCpuUsages cpus fl call true g).1.ret = some count ∧
          WritesAtMost (getCpuUsages cpus fl call false g).1 count) ↔
      (toInt size ≤ descs.length ∨ ∃ d ∈ descs, ¬ Holds files d) ∧
        (size = countCooling files descs → 0 < size ∧ ∀ d ∈ descs.take size, Holds files d) ∧
        ∃ count, g'.num_cpus_total = some count ∧
          ((cpus.stat.toOption.elim [] (acceptedLines cpus)).length : Int) ≤ count := by
  have hnull : (getCoolingDevices fl files call true size g).1.ret = some (countCooling files descs : Int) := by
    unfold getCoolingDevices
    rw [hconf]
    dsimp only
    rw [htable]
    rfl
  have hsize : some (size : Int) = (getCoolingDevices fl files call true size g).1.ret ↔
      size = countCooling files descs := by
    rw [hnull, Option.some_inj, Int.natCast_inj]
  rw [hsize, getCoolingDevices_eq hconf htable, getCpuUsages_null hconf]
  refine and_congr ?_ (and_congr (forall_congr' fun hc => ?_)
    (exists_congr fun count => and_congr_right fun _ => ?_))
  · by_cases hzero : size = 0
    · rw [if_pos hzero, hzero]
      exact ⟨fun _ => .inl (Int.natCast_nonneg _), fun _ k hk => absurd hk List.not_mem_nil⟩
    · rw [if_neg hzero, readsInside_iff, Int.toNat_le]
  · by_cases hzero : size = 0
    · rw [if_pos hzero]
      refine ⟨fun ⟨es, hret, _⟩ => ?_, fun ⟨hpos, _⟩ => absurd hzero (Nat.ne_of_gt hpos)⟩
      have := Option.some.inj hret
      unfold ENOMEM at this
      omega
    · have hle : size ≤ descs.length := hc ▸ List.countP_le_length
      rw [if_neg hzero, toInt_eq (Int.natCast_nonneg size) (by omega), Int.toNat_natCast, returnsExisting_iff hc]
      exact (and_iff_right (Nat.pos_of_ne_zero hzero)).symm
  · obtain ⟨es, hes, hlength⟩ := @getCpuUsages_list φ fl cpus call g g' hconf
    rw [writesAtMost_iff hes, hlength]

end

/-! ## One fan -/

section

def fanDesc : CoolingDesc := ⟨some "fan", some .fan_rpm, none⟩

def fanGlobals : Globals Int := ⟨.empty, ⟨some [some fanDesc], 1, false⟩, some 1⟩

def fanFiles : String → FileState Int := fun _ => .holds (.value 1200)

def oneCpu : CpuFiles := ⟨.ok "cpu  1 2 3 4\ncpu0 1 2 3 4\n", fun _ => none, fun _ => 0⟩

/-- A list of size 2 makes the loop read behind a table of one fan. -/
theorem fan_behind_table :
    ¬ ∀ (fl : Floats Int) (files : String → FileState Int) (cpus : CpuFiles) (call : Call) (g g' : Globals Int)
        (descs : List CoolingDesc) (size : Nat), configure fl call g = .ok g' →
        countedEntries g'.cooling_data = some descs → (descs.length : Int) ≤ INT_MAX →
        ReadsInside descs (getCoolingDevices fl files call false size g).1 ∧
          (some (size : Int) = (getCoolingDevices fl files call true size g).1.ret →
            ReturnsExisting files descs (getCoolingDevices fl files call false size g).1) ∧
          ∃ count, (getCpuUsages cpus fl call true g).1.ret = some count ∧
            WritesAtMost (getCpuUsages cpus fl call false g).1 count := by
  intro h
  have hinside := (h intFloats fanFiles oneCpu anyCall fanGlobals fanGlobals [fanDesc] 2 rfl rfl (by decide)).1
  exact absurd (hinside 1 (by decide)) (by decide)

theorem cooling_and_usages_of_fan :
    ReadsInside [fanDesc] (getCoolingDevices intFloats fanFiles anyCall false 1 fanGlobals).1 ∧
      (some (1 : Int) = (getCoolingDevices intFloats fanFiles anyCall true 1 fanGlobals).1.ret →
        ReturnsExisting fanFiles [fanDesc] (getCoolingDevices intFloats fanFiles anyCall false 1 fanGlobals).1) ∧
      ∃ count, (getCpuUsages oneCpu intFloats anyCall true fanGlobals).1.ret = some count ∧
        WritesAtMost (getCpuUsages oneCpu intFloats anyCall false fanGlobals).1 count := by
  refine (cooling_and_usages_iff intFloats fanFiles oneCpu anyCall fanGlobals fanGlobals [fanDesc] 1 rfl rfl
    (by decide)).mpr ⟨.inl (by decide), fun _ => ⟨by decide, fun d _ => ⟨1200, rfl⟩⟩, 1, rfl, ?_⟩
  decide

end

end MochaHal.Thermal
