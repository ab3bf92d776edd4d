import MochaHal.Thermal.Parse
import Mathlib.Data.List.Nodup

/-! The names of the cores that `parse_therm_prop` prints.  A name gets as many bytes as
the text of `cores` and the name of the device have together, and one more.  That is
enough (`core_names_fit`): a number has no more digits than the text it was read from,
and those below it have no more than it has. -/

namespace MochaHal.Thermal
open MochaHal.Decimal

/-! ## The source -/

/-- The bytes of a text before its terminator. -/
def strlen (s : String) : Nat := s.utf8ByteSize

/-- `sprintf` into a buffer of `size` bytes; `none` where it writes behind it. -/
def sprintf (size : Nat) (text : String) : Option String := if strlen text + 1 ≤ size then some text else none

/-- The loop over the cores, where every name is allocated. -/
def fillCoreNames (name c : String) : Option (List String) :=
  (List.range (atoi c.toList).toNat).mapM fun i => sprintf (strlen c + strlen name + 1) (name ++ toString i)

/-! ## Lengths -/

theorem strlen_ofList (text : List Char) : strlen (String.ofList text) = (text.map Char.utf8Size).sum := by
  induction text with
  | nil => rfl
  | cons c text ih =>
    rw [List.map_cons, List.sum_cons, ← ih]
    simp [strlen, String.ofList_cons]

theorem length_le_strlen (s : String) : s.toList.length ≤ strlen s := by
  have hsum : ∀ text : List Char, text.length ≤ (text.map Char.utf8Size).sum := by
    intro text
    induction text with
    | nil => exact Nat.le_refl 0
    | cons c text ih =>
      have := c.utf8Size_pos
      rw [List.length_cons, List.map_cons, List.sum_cons]
      omega
  rw [← String.ofList_toList (s := s), strlen_ofList, String.toList_ofList]
  exact hsum s.toList

theorem strlen_append (s t : String) : strlen (s ++ t) = strlen s + strlen t := String.utf8ByteSize_append

theorem strlen_toString (i : Nat) : strlen (toString i) = (decimal i).length := by
  have hone : ∀ c ∈ decimal i, c.utf8Size = 1 := by
    intro c hc
    have hdigit : c.val.toNat ≤ 57 := by
      have := decimal_isDigit hc
      simp only [Char.isDigit, ge_iff_le, Bool.and_eq_true, decide_eq_true_eq, UInt32.le_iff_toNat_le] at this
      exact this.2
    have hascii : c.val ≤ 0x7F := UInt32.le_iff_toNat_le.mpr (Nat.le_trans hdigit (by decide))
    unfold Char.utf8Size
    exact if_pos hascii
  have hsum : ∀ text : List Char, (∀ c ∈ text, c.utf8Size = 1) → (text.map Char.utf8Size).sum = text.length := by
    intro text htext
    induction text with
    | nil => rfl
    | cons c text ih =>
      rw [List.map_cons, List.sum_cons, List.length_cons, htext c List.mem_cons_self,
        ih fun d hd => htext d (List.mem_cons_of_mem c hd), Nat.add_comm]
  rw [Nat.toString_eq_ofList_toDigits, strlen_ofList]
  exact hsum (decimal i) hone

/-! ## The names -/

variable {name c : String} {i : Nat}

theorem core_name_fits (h : i < (atoi c.toList).toNat) :
    strlen (name ++ toString i) + 1 ≤ strlen c + strlen name + 1 := by
  have hdigits := length_decimal_le_of_lt_atoi h
  have hc := length_le_strlen c
  rw [strlen_append, strlen_toString]
  omega

theorem coreNames_nodup (name : String) (x : Int) : (coreNames name x).Nodup := by
  refine List.nodup_range.map fun i j h => ?_
  have hdigits : Nat.toDigits 10 i = Nat.toDigits 10 j := by
    simpa [Nat.toString_eq_ofList_toDigits] using congrArg String.toList h
  rw [← @Nat.ofDigitChars_ten_toDigits i, hdigits, Nat.ofDigitChars_ten_toDigits]

theorem fillCoreNames_eq (name c : String) : fillCoreNames name c = some (coreNames name (atoi c.toList)) := by
  have hprint : ∀ is : List Nat, (∀ i ∈ is, i < (atoi c.toList).toNat) →
      (is.mapM fun i => sprintf (strlen c + strlen name + 1) (name ++ toString i)) =
        some (is.map fun i => name ++ toString i) := by
    intro is
    induction is with
    | nil => exact fun _ => rfl
    | cons i is ih =>
      intro his
      rw [List.mapM_cons, sprintf, if_pos (core_name_fits (his i List.mem_cons_self)),
        ih fun j hj => his j (List.mem_cons_of_mem i hj)]
      rfl
  exact hprint _ fun i hi => List.mem_range.mp hi

/-- Where memory is left, a device gets the names that the loop prints. -/
theorem parseCores_fills {φ : Type} {alloc : Alloc} {node : Node} {d : ThermalDesc φ} (hname : d.name = some name)
    (hcores : node.getAttribute "cores" = some c) (hx : 0 < atoi c.toList)
    (halloc : alloc.names (atoi c.toList) ∧ ∀ i < (atoi c.toList).toNat, alloc.core_name i) :
    ∃ d', parseCores alloc node d = .ok d' ∧ d'.core_names = fillCoreNames name c := by
  have hx' : ¬ atoi c.toList ≤ 0 := by omega
  refine ⟨{ d with cores := atoi c.toList, read_cluster := true, core_names := some (coreNames name (atoi c.toList)) },
    ?_, (fillCoreNames_eq name c).symm⟩
  simp only [parseCores, hcores, gt_iff_lt, hx, hx', hname, halloc, ↓reduceIte]
  exact if_pos ⟨trivial, halloc.2⟩

/-- **The names of the cores.**  Whatever stands in `cores`, no name is longer than its
buffer, and no two of them are the same. -/
theorem core_names_fit (name c : String) :
    (∀ i < (atoi c.toList).toNat, strlen (name ++ toString i) + 1 ≤ strlen c + strlen name + 1) ∧
    fillCoreNames name c = some (coreNames name (atoi c.toList)) ∧
    (coreNames name (atoi c.toList)).length = (atoi c.toList).toNat ∧
    (coreNames name (atoi c.toList)).Nodup :=
  ⟨fun _ => core_name_fits, fillCoreNames_eq name c, by simp [coreNames], coreNames_nodup name _⟩

end MochaHal.Thermal
