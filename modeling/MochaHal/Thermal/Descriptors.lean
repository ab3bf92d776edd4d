import MochaHal.Lib.Writes
import MochaHal.Thermal.Parse

/-! One descriptor from the properties of a device.  The name and the labels keep their
first value, the multiplier, the type and the cores their last, and the core names take the
name as it is then.  `entryOf_eq` says what comes out, `orderFree_iff` when the order of the
properties does not matter. -/

namespace MochaHal.Thermal

open MochaHal.Decimal MochaHal.Spans MochaHal.Writes

/-! ## What a property asks for -/

/-- The array of core names that a property asks for: a number of names, or an array that
is empty or null. -/
inductive CoreArray
  | cores (n : Nat)
  | empty (allocated : Bool)
  deriving DecidableEq, Repr

section

variable {φ : Type} (fl : Floats φ) (names : Int → Bool) (node : Node)

/-- Memory for everything that is asked for.  `names` says whether an array of no names,
or of fewer, is allocated. -/
def plenty : Alloc := ⟨true, fun _ => true, true, fun x => x > 0 ∨ names x, fun _ => true⟩

def nodeMultiplier : Option φ := (node.getAttribute "multiplier").map fl.atof

def nodeType : Option DeviceType := (node.getAttribute "type").bind fun c => deviceTypes.lookup c

def nodeCores : Option CoreArray :=
  (node.getAttribute "cores").map fun c =>
    let x := atoi c.toList
    if x > 0 then .cores x.toNat else .empty (names x)

end

def CoreArray.count : CoreArray → Option Nat
  | .cores n => some n
  | .empty _ => none

/-- A property that asks for core names. -/
def nodeCount (names : Int → Bool) (node : Node) : Option Nat := (nodeCores names node).bind CoreArray.count

def CoreArray.names (name : Option String) : CoreArray → Option (List String)
  | .cores n => some (coreNames (name.getD "") n)
  | .empty allocated => if allocated then some [] else none

/-- What the properties make of a new entry. -/
def summary {φ : Type} (fl : Floats φ) (names : Int → Bool) (props : List Node) : ThermalDesc φ :=
  let name := firstWrite (fun p => p.getAttribute "name") props
  { freshThermal fl none with
    name := name
    sensor_label := firstWrite (fun p => p.getAttribute "sensor-label") props
    threshold_label := firstWrite (fun p => p.getAttribute "threshold-label") props
    multiplier := lastWrite (nodeMultiplier fl) props
    type := (lastWrite nodeType props).getD .unknown
    cores := ((lastWrite (nodeCount names) props).getD 0 : Nat)
    read_cluster := (lastWrite (nodeCount names) props).isSome
    core_names := (lastWrite (nodeCores names) props).bind (CoreArray.names name) }

/-- The name is there when core names are asked for. -/
def Named (names : Int → Bool) (props : List Node) : Prop :=
  ∀ before p after, props = before ++ p :: after → nodeCount names p ≠ none →
    firstWrite (fun p => p.getAttribute "name") (before ++ [p]) ≠ none

section

variable {φ : Type} (fl : Floats φ) (names : Int → Bool)

/-- One property, with memory for it. -/
def thermUpdate (p : Node) (d : ThermalDesc φ) : Option (ThermalDesc φ) := (parseThermProp fl (plenty names) p d).toOption

theorem copyAttribute_name (p : Node) (d : ThermalDesc φ) :
    copyAttribute (plenty names) p "name" ThermalDesc.name (fun d c => { d with name := some c }) d =
      .ok { d with name := d.name.or (p.getAttribute "name") } := by
  obtain ⟨name⟩ := d
  unfold copyAttribute
  cases name <;> cases p.getAttribute "name" <;> rfl

theorem copyAttribute_sensor (p : Node) (d : ThermalDesc φ) :
    copyAttribute (plenty names) p "sensor-label" ThermalDesc.sensor_label
        (fun d c => { d with sensor_label := some c }) d =
      .ok { d with sensor_label := d.sensor_label.or (p.getAttribute "sensor-label") } := by
  obtain ⟨name, type, label⟩ := d
  unfold copyAttribute
  cases label <;> cases p.getAttribute "sensor-label" <;> rfl

theorem copyAttribute_threshold (p : Node) (d : ThermalDesc φ) :
    copyAttribute (plenty names) p "threshold-label" ThermalDesc.threshold_label
        (fun d c => { d with threshold_label := some c }) d =
      .ok { d with threshold_label := d.threshold_label.or (p.getAttribute "threshold-label") } := by
  obtain ⟨name, type, sensor, t1, t2, t3, label⟩ := d
  unfold copyAttribute
  cases label <;> cases p.getAttribute "threshold-label" <;> rfl

/-- What a property changes of an entry, if the name is there when it is needed. -/
def withProp (p : Node) (d : ThermalDesc φ) : ThermalDesc φ :=
  let name := d.name.or (p.getAttribute "name")
  { d with
    name := name
    sensor_label := d.sensor_label.or (p.getAttribute "sensor-label")
    threshold_label := d.threshold_label.or (p.getAttribute "threshold-label")
    multiplier := (nodeMultiplier fl p).or d.multiplier
    type := (nodeType p).getD d.type
    cores := ((nodeCount names p).map Int.ofNat).getD d.cores
    read_cluster := (nodeCount names p).isSome || d.read_cluster
    core_names := match nodeCores names p with
      | none => d.core_names
      | some array => array.names name }

theorem parseCores_eq (p : Node) (d : ThermalDesc φ) :
    (parseCores (plenty names) p d).toOption =
      if nodeCount names p ≠ none ∧ d.name = none then none
      else some { d with
        cores := ((nodeCount names p).map Int.ofNat).getD d.cores
        read_cluster := (nodeCount names p).isSome || d.read_cluster
        core_names := match nodeCores names p with
          | none => d.core_names
          | some array => array.names d.name } := by
  unfold parseCores nodeCount nodeCores
  cases p.getAttribute "cores" with
  | none => simp [Except.toOption]
  | some c =>
    dsimp only [Option.map_some, Option.bind_some]
    obtain ⟨name⟩ := d
    by_cases hx : atoi c.toList > 0
    · have hle : ¬ atoi c.toList ≤ 0 := by omega
      have hcast : ((atoi c.toList).toNat : Int) = atoi c.toList := by omega
      cases name with
      | none => simp [hx, hle, CoreArray.count, Except.toOption]
      | some name => simp [hx, hle, CoreArray.count, CoreArray.names, Except.toOption, plenty, hcast, coreNames]
    · have hle : atoi c.toList ≤ 0 := by omega
      simp [hx, hle, CoreArray.count, CoreArray.names, Except.toOption, plenty]

theorem thermUpdate_eq (p : Node) (d : ThermalDesc φ) :
    thermUpdate fl names p d =
      if nodeCount names p ≠ none ∧ d.name.or (p.getAttribute "name") = none then none
      else some (withProp fl names p d) := by
  unfold thermUpdate parseThermProp
  rw [copyAttribute_name]
  dsimp only [bind, Except.bind]
  rw [copyAttribute_sensor]
  dsimp only
  rw [copyAttribute_threshold]
  dsimp only
  exact parseCores_eq names p _

theorem named_concat (props : List Node) (p : Node) :
    Named names (props ++ [p]) ↔ Named names props ∧
      (nodeCount names p ≠ none → firstWrite (fun p => p.getAttribute "name") (props ++ [p]) ≠ none) := by
  constructor
  · intro h
    refine ⟨fun before q after hq => ?_, h props p [] rfl⟩
    exact h before q (after ++ [p]) (by rw [hq, List.append_assoc, List.cons_append])
  · rintro ⟨hprops, hp⟩ before q after hq hcount
    rcases List.eq_nil_or_concat after with rfl | ⟨after, last, rfl⟩
    · obtain ⟨rfl, hlast⟩ := List.append_inj' hq rfl
      obtain rfl := (List.cons.inj hlast).1
      exact hp hcount
    · rw [List.concat_eq_append, ← List.cons_append, ← List.append_assoc] at hq
      obtain ⟨rfl, -⟩ := List.append_inj' hq rfl
      exact hprops before q after rfl hcount

theorem Named.of_mem {props : List Node} (h : Named names props) {p : Node} (hp : p ∈ props)
    (hcount : nodeCount names p ≠ none) : firstWrite (fun p => p.getAttribute "name") props ≠ none := by
  obtain ⟨before, after, rfl⟩ := List.append_of_mem hp
  intro hnone
  refine h before p after rfl hcount (firstWrite_eq_none.mpr fun q hq => firstWrite_eq_none.mp hnone q ?_)
  rw [← List.singleton_append, ← List.append_assoc]
  exact List.mem_append_left _ hq

/-- A name that comes later does not change the core names there are. -/
theorem bind_names_or {props : List Node} (h : Named names props) (later : Option String) :
    (lastWrite (nodeCores names) props).bind
        (CoreArray.names ((firstWrite (fun p => p.getAttribute "name") props).or later)) =
      (lastWrite (nodeCores names) props).bind
        (CoreArray.names (firstWrite (fun p => p.getAttribute "name") props)) := by
  cases hlast : lastWrite (nodeCores names) props with
  | none => rfl
  | some array =>
    cases array with
    | empty allocated => rfl
    | cores n =>
      obtain ⟨p, hp, hcores⟩ := mem_of_lastWrite hlast
      have hcount : nodeCount names p ≠ none := by
        unfold nodeCount
        rw [hcores]
        exact Option.some_ne_none n
      obtain ⟨name, hname⟩ := Option.ne_none_iff_exists'.mp (h.of_mem names hp hcount)
      rw [hname, Option.some_or]

/-- One more property, with the name there. -/
theorem summary_concat {props : List Node} (h : Named names props) (p : Node) :
    summary fl names (props ++ [p]) = withProp fl names p (summary fl names props) := by
  have hbind := bind_names_or names h (p.getAttribute "name")
  unfold summary withProp
  simp only [firstWrite_concat, lastWrite_concat, ThermalDesc.mk.injEq, true_and, and_true]
  refine ⟨?_, ?_, ?_, ?_⟩
  · cases nodeType p <;> rfl
  · cases nodeCount names p <;> rfl
  · cases nodeCores names p with
    | none => exact hbind
    | some array => rfl
  · cases nodeCount names p <;> rfl

/-- The entry of a device: none if a name is missed. -/
theorem entryOf_eq (props : List Node) :
    entryOf (freshThermal fl) (thermUpdate fl names) props = none ∧ ¬ Named names props ∨
      entryOf (freshThermal fl) (thermUpdate fl names) props = some (summary fl names props) ∧ Named names props := by
  induction props using List.reverseRecOn with
  | nil => exact .inr ⟨rfl, fun before p after h => (by simp at h)⟩
  | append_singleton props p ih =>
    have hstep : entryOf (freshThermal fl) (thermUpdate fl names) (props ++ [p]) =
        (entryOf (freshThermal fl) (thermUpdate fl names) props).bind (thermUpdate fl names p) := by
      unfold entryOf
      rw [List.foldlM_append]
      exact congrArg _ (funext fun d => by cases h : thermUpdate fl names p d <;> simp [h])
    rw [hstep, named_concat]
    rcases ih with ⟨hnone, hnot⟩ | ⟨hsome, hnamed⟩
    · rw [hnone]
      exact .inl ⟨rfl, fun h => hnot h.1⟩
    · rw [hsome, Option.bind_some, thermUpdate_eq, firstWrite_concat, summary_concat fl names hnamed]
      by_cases hmissed : nodeCount names p ≠ none ∧
          (firstWrite (fun p => p.getAttribute "name") props).or (p.getAttribute "name") = none
      · exact .inl ⟨if_pos hmissed, fun h => h.2 hmissed.1 hmissed.2⟩
      · exact .inr ⟨if_neg hmissed, hnamed, fun hcount hnone => hmissed ⟨hcount, hnone⟩⟩

/-! ## Any order -/

/-- The properties of a device agree: what two of them ask for is the same, and one that
asks for core names has the name with it. -/
structure PropsAgree (props : List Node) : Prop where
  named : ∀ p ∈ props, nodeCount names p ≠ none → p.getAttribute "name" ≠ none
  name : ∀ p ∈ props, ∀ q ∈ props, Agree (fun p => p.getAttribute "name") p q
  sensor_label : ∀ p ∈ props, ∀ q ∈ props, Agree (fun p => p.getAttribute "sensor-label") p q
  threshold_label : ∀ p ∈ props, ∀ q ∈ props, Agree (fun p => p.getAttribute "threshold-label") p q
  multiplier : ∀ p ∈ props, ∀ q ∈ props, Agree (nodeMultiplier fl) p q
  type : ∀ p ∈ props, ∀ q ∈ props, Agree nodeType p q
  cores : ∀ p ∈ props, ∀ q ∈ props, Agree (nodeCores names) p q

theorem PropsAgree.ready {props props' : List Node} (h : PropsAgree fl names props) (hp : props'.Perm props) :
    Named names props' := by
  rintro before p after rfl hcount hnone
  have hmem : p ∈ before ++ p :: after := List.mem_append_right _ List.mem_cons_self
  refine h.named p (hp.subset hmem) hcount (firstWrite_eq_none.mp hnone p ?_)
  exact List.mem_append_right _ List.mem_cons_self

theorem PropsAgree.summary_perm {props props' : List Node} (h : PropsAgree fl names props) (hp : props'.Perm props) :
    summary fl names props' = summary fl names props := by
  have hcount : ∀ p ∈ props, ∀ q ∈ props, Agree (nodeCount names) p q := by
    intro p hmem q hmem' x hx y hy
    obtain ⟨array, harray, hx⟩ := Option.bind_eq_some_iff.mp hx
    obtain ⟨array', harray', hy⟩ := Option.bind_eq_some_iff.mp hy
    rw [h.cores p hmem q hmem' array harray array' harray', hy] at hx
    exact (Option.some.inj hx).symm
  unfold summary
  rw [firstWrite_perm h.name hp, firstWrite_perm h.sensor_label hp, firstWrite_perm h.threshold_label hp,
    lastWrite_perm h.multiplier hp, lastWrite_perm h.type hp, lastWrite_perm h.cores hp, lastWrite_perm hcount hp]

variable {fl names} in
theorem entryOf_eq_some {props : List Node} {d : ThermalDesc φ}
    (h : entryOf (freshThermal fl) (thermUpdate fl names) props = some d) :
    d = summary fl names props ∧ Named names props := by
  rcases entryOf_eq fl names props with ⟨hnone, -⟩ | ⟨hsome, hnamed⟩
  · rw [hnone] at h
    cases h
  · exact ⟨Option.some.inj (h.symm.trans hsome), hnamed⟩

/-- The core names show what was asked for. -/
theorem names_inj {name : Option String} {a b : CoreArray} (ha : ∀ n, a = .cores n → 0 < n)
    (hb : ∀ n, b = .cores n → 0 < n) (h : a.names name = b.names name) : a = b := by
  have hlength (n : Nat) : (coreNames (name.getD "") n).length = n := by simp [coreNames]
  cases a with
  | cores n =>
    have hn := hlength n
    cases b with
    | cores m =>
      have hm := hlength m
      rw [Option.some.inj h] at hn
      rw [← hn, hm]
    | empty allocated =>
      cases allocated with
      | false => cases h
      | true =>
        have := ha n rfl
        rw [Option.some.inj h, List.length_nil] at hn
        omega
  | empty allocated =>
    cases b with
    | cores m =>
      have hm := hlength m
      cases allocated with
      | false => cases h
      | true =>
        have := hb m rfl
        rw [← Option.some.inj h, List.length_nil] at hm
        omega
    | empty allocated' =>
      cases allocated <;> cases allocated' <;> first | rfl | cases h

theorem nodeCores_pos {p : Node} {n : Nat} (h : nodeCores names p = some (.cores n)) : 0 < n := by
  obtain ⟨c, -, h⟩ := Option.map_eq_some_iff.mp h
  dsimp only at h
  split at h
  · have := CoreArray.cores.inj h
    omega
  · cases h

/-- **The order of the properties.** -/
theorem orderFree_iff (props : List Node) :
    (∀ props', props'.Perm props →
      entryOf (freshThermal fl) (thermUpdate fl names) props' = some (summary fl names props)) ↔
      PropsAgree fl names props := by
  constructor
  · intro h
    have hany {props'} (hp : props'.Perm props) :
        summary fl names props' = summary fl names props ∧ Named names props' := by
      obtain ⟨hd, hnamed⟩ := entryOf_eq_some (h props' hp)
      exact ⟨hd.symm, hnamed⟩
    have hsame {l l' : List Node} (hl : l.Perm props) (hl' : l'.Perm props) :
        summary fl names l = summary fl names l' := (hany hl).1.trans (hany hl').1.symm
    have hfirst {β : Type} (f : Node → Option β) (field : ThermalDesc φ → Option β)
        (hf : ∀ props, field (summary fl names props) = firstWrite f props) :
        ∀ p ∈ props, ∀ q ∈ props, Agree f p q := by
      intro p hp q hq x hx y hy
      obtain ⟨l, hl, hlx⟩ := exists_perm_firstWrite hp hx
      obtain ⟨l', hl', hly⟩ := exists_perm_firstWrite hq hy
      have := congrArg field (hsame hl hl')
      rw [hf, hf, hlx, hly] at this
      exact Option.some.inj this
    -- two orders with each of two writes last, and one descriptor for both
    have hlast {β : Type} {f : Node → Option β} {p q : Node} (hp : p ∈ props) (hq : q ∈ props) {x y : β}
        (hx : f p = some x) (hy : f q = some y) :
        ∃ l l', lastWrite f l = some x ∧ lastWrite f l' = some y ∧ summary fl names l = summary fl names l' := by
      obtain ⟨l, hl, hlx⟩ := exists_perm_lastWrite hp hx
      obtain ⟨l', hl', hly⟩ := exists_perm_lastWrite hq hy
      exact ⟨l, l', hlx, hly, hsame hl hl'⟩
    refine ⟨?_, hfirst _ ThermalDesc.name fun _ => rfl, hfirst _ ThermalDesc.sensor_label fun _ => rfl,
      hfirst _ ThermalDesc.threshold_label fun _ => rfl, ?_, ?_, ?_⟩
    · intro p hp hcount
      obtain ⟨before, after, rfl⟩ := List.append_of_mem hp
      have := (@hany (p :: (before ++ after)) List.perm_middle.symm).2 [] p _ rfl hcount
      simpa [firstWrite] using this
    · intro p hp q hq x hx y hy
      obtain ⟨l, l', hlx, hly, heq⟩ := hlast hp hq hx hy
      have : lastWrite (nodeMultiplier fl) l = lastWrite (nodeMultiplier fl) l' := congrArg ThermalDesc.multiplier heq
      rw [hlx, hly] at this
      exact Option.some.inj this
    · intro p hp q hq x hx y hy
      obtain ⟨l, l', hlx, hly, heq⟩ := hlast hp hq hx hy
      have : (lastWrite nodeType l).getD .unknown = (lastWrite nodeType l').getD .unknown :=
        congrArg ThermalDesc.type heq
      rwa [hlx, hly] at this
    · intro p hp q hq x hx y hy
      obtain ⟨l, l', hlx, hly, heq⟩ := hlast hp hq hx hy
      have hname : firstWrite (fun p => p.getAttribute "name") l = firstWrite (fun p => p.getAttribute "name") l' :=
        congrArg ThermalDesc.name heq
      have : (lastWrite (nodeCores names) l).bind (CoreArray.names (firstWrite (fun p => p.getAttribute "name") l)) =
          (lastWrite (nodeCores names) l').bind (CoreArray.names (firstWrite (fun p => p.getAttribute "name") l')) :=
        congrArg ThermalDesc.core_names heq
      rw [hlx, hly, hname] at this
      refine names_inj (fun n hn => ?_) (fun n hn => ?_) this
      · exact nodeCores_pos names (hn ▸ hx)
      · exact nodeCores_pos names (hn ▸ hy)
  · intro h props' hp
    rcases entryOf_eq fl names props' with ⟨-, hnot⟩ | ⟨hsome, -⟩
    · exact absurd (h.ready fl names hp) hnot
    · rw [hsome, h.summary_perm fl names hp]

end

end MochaHal.Thermal
