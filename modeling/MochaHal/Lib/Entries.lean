import Mathlib.Tactic.Common

/-! Lists as tables with numbered entries.  `List.set` and `List.modify` change one entry;
the lemmas say what that does to a count over the table and to a view of its entries. -/

namespace MochaHal.Entries

variable {α β : Type}

/-- One entry that changes moves the count by what it was and is. -/
theorem countP_set_add {p : α → Bool} {l : List α} {i : Nat} {a : α} (h : l[i]? = some a) (b : α) :
    (l.set i b).countP p + (p a).toNat = l.countP p + (p b).toNat := by
  obtain ⟨hi, rfl⟩ := List.getElem?_eq_some_iff.mp h
  have hnat : ∀ b : Bool, (if b = true then 1 else 0) = b.toNat := by decide
  have hle := List.boole_getElem_le_countP (p := p) hi
  have hset := List.countP_set (p := p) (a := b) hi
  rw [hnat] at hle
  rw [hnat, hnat] at hset
  omega

/-- As many entries as the count are at the front, so they are all there are. -/
theorem filter_eq_take {p : α → Bool} {l : List α} (h : ∀ a ∈ l.take (l.countP p), p a = true) :
    l.filter p = l.take (l.countP p) := by
  have hfront : (l.take (l.countP p)).filter p = l.take (l.countP p) := List.filter_eq_self.mpr h
  have hlength : (l.take (l.countP p)).length = l.countP p := List.length_take_of_le List.countP_le_length
  have hsplit : l.filter p = l.take (l.countP p) ++ (l.drop (l.countP p)).filter p := by
    calc
      l.filter p = (l.take (l.countP p) ++ l.drop (l.countP p)).filter p := by rw [List.take_append_drop]
      _ = l.take (l.countP p) ++ (l.drop (l.countP p)).filter p := by rw [List.filter_append, hfront]
  have hnil : (l.drop (l.countP p)).filter p = [] := by
    have := congrArg List.length hsplit
    rw [List.length_append, hlength, ← List.countP_eq_length_filter] at this
    exact List.length_eq_zero_iff.mp (by omega)
  rw [hsplit, hnil, List.append_nil]

theorem filterMap_cons_toList (f : α → Option β) (a : α) (l : List α) :
    (a :: l).filterMap f = (f a).toList ++ l.filterMap f := by
  rw [List.filterMap_cons]
  cases f a <;> rfl

/-- One entry has the name. -/
theorem filter_eq_singleton [DecidableEq β] {f : α → Option β} {l : List α} {a : α} {b : β}
    (hnodup : (l.filterMap f).Nodup) (ha : a ∈ l) (hb : f a = some b) : l.filter (fun x => f x = some b) = [a] := by
  induction l with
  | nil => cases ha
  | cons x l ih =>
    have hrest (hfresh : b ∉ l.filterMap f) : l.filter (fun x => f x = some b) = [] := by
      refine List.filter_eq_nil_iff.mpr fun y hy hname => ?_
      exact hfresh (List.mem_filterMap.mpr ⟨y, hy, of_decide_eq_true hname⟩)
    cases hx : f x with
    | none =>
      rw [List.filterMap_cons_none hx] at hnodup
      rw [List.filter_cons_of_neg (by simp [hx])]
      rcases List.mem_cons.mp ha with rfl | ha
      · cases hx.symm.trans hb
      · exact ih hnodup ha
    | some c =>
      rw [List.filterMap_cons_some hx, List.nodup_cons] at hnodup
      rcases List.mem_cons.mp ha with rfl | ha
      · obtain rfl := Option.some.inj (hx.symm.trans hb)
        rw [List.filter_cons_of_pos (by simp [hx]), hrest hnodup.1]
      · have hne : c ≠ b := fun heq => hnodup.1 (heq ▸ List.mem_filterMap.mpr ⟨a, ha, hb⟩)
        rw [List.filter_cons_of_neg (by simp [hx, hne])]
        exact ih hnodup.2 ha

/-- A view that does not see the change. -/
theorem map_set_same {g : α → β} {l : List α} {i : Nat} {a b : α} (h : l[i]? = some a) (hg : g b = g a) :
    (l.set i b).map g = l.map g := by
  induction l generalizing i with
  | nil => simp
  | cons x l ih =>
    cases i with
    | zero =>
      obtain rfl : x = a := by simpa using h
      simp [hg]
    | succ i => simp [ih (by simpa using h)]

/-- A change to one entry that a view of the entries follows. -/
theorem map_modify_of_comm (g : α → β) (f : α → α) (f' : β → β) (h : ∀ x, g (f x) = f' (g x)) (l : List α)
    (i : Nat) : (l.modify i f).map g = (l.map g).modify i f' := by
  induction l generalizing i with
  | nil => simp
  | cons x l ih =>
    cases i with
    | zero => simp [h]
    | succ i => simp [ih]

theorem map_modify_same {g : α → β} {f : α → α} (h : ∀ x, g (f x) = g x) (l : List α) (i : Nat) :
    (l.modify i f).map g = l.map g := by
  rw [map_modify_of_comm g f id h, List.modify_id]

theorem modify_last (l : List α) (x : α) (f : α → α) : (l ++ [x]).modify l.length f = l ++ [f x] := by
  induction l with
  | nil => rfl
  | cons y l ih => simp [ih]

end MochaHal.Entries
