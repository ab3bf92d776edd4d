import Mathlib.Tactic.Common
import Mathlib.Data.List.Induction
import Mathlib.Data.List.Perm.Basic

/-! A register that a sequence of requests writes, each or not.  The first write or the last
one is kept.  The order does not matter exactly if all writes agree. -/

namespace MochaHal.Writes

variable {α β : Type}

/-- The first write of the requests is kept. -/
def firstWrite (f : α → Option β) (l : List α) : Option β := l.foldl (fun old a => old.or (f a)) none

/-- The last write of the requests is kept. -/
def lastWrite (f : α → Option β) (l : List α) : Option β := l.foldl (fun old a => (f a).or old) none

/-- Two requests that both write, write the same. -/
def Agree (f : α → Option β) (a b : α) : Prop := ∀ x ∈ f a, ∀ y ∈ f b, x = y

variable {f : α → Option β} {l l' : List α}

@[simp] theorem firstWrite_nil : firstWrite f [] = none := rfl

@[simp] theorem lastWrite_nil : lastWrite f [] = none := rfl

theorem firstWrite_concat (l : List α) (a : α) : firstWrite f (l ++ [a]) = (firstWrite f l).or (f a) := by
  unfold firstWrite
  rw [List.foldl_append]
  rfl

theorem lastWrite_concat (l : List α) (a : α) : lastWrite f (l ++ [a]) = (f a).or (lastWrite f l) := by
  unfold lastWrite
  rw [List.foldl_append]
  rfl

/-- What is kept was written. -/
theorem mem_of_firstWrite {x : β} (h : firstWrite f l = some x) : ∃ a ∈ l, f a = some x := by
  induction l using List.reverseRecOn with
  | nil => cases h
  | append_singleton l a ih =>
    rw [firstWrite_concat] at h
    rcases Option.or_eq_some_iff.mp h with h | ⟨-, h⟩
    · obtain ⟨b, hb, hx⟩ := ih h
      exact ⟨b, List.mem_append_left _ hb, hx⟩
    · exact ⟨a, List.mem_append_right _ List.mem_cons_self, h⟩

theorem mem_of_lastWrite {x : β} (h : lastWrite f l = some x) : ∃ a ∈ l, f a = some x := by
  induction l using List.reverseRecOn with
  | nil => cases h
  | append_singleton l a ih =>
    rw [lastWrite_concat] at h
    rcases Option.or_eq_some_iff.mp h with h | ⟨-, h⟩
    · exact ⟨a, List.mem_append_right _ List.mem_cons_self, h⟩
    · obtain ⟨b, hb, hx⟩ := ih h
      exact ⟨b, List.mem_append_left _ hb, hx⟩

theorem firstWrite_eq_none : firstWrite f l = none ↔ ∀ a ∈ l, f a = none := by
  induction l using List.reverseRecOn with
  | nil => simp
  | append_singleton l a ih => rw [firstWrite_concat, Option.or_eq_none_iff, ih]; simp [or_imp, forall_and]

theorem lastWrite_eq_none : lastWrite f l = none ↔ ∀ a ∈ l, f a = none := by
  induction l using List.reverseRecOn with
  | nil => simp
  | append_singleton l a ih =>
    rw [lastWrite_concat, Option.or_eq_none_iff, ih]
    simp [or_imp, forall_and, and_comm]

/-- **Writes that agree.** -/
theorem firstWrite_perm (h : ∀ a ∈ l, ∀ b ∈ l, Agree f a b) (hp : l'.Perm l) : firstWrite f l' = firstWrite f l := by
  cases hl : firstWrite f l with
  | none => exact firstWrite_eq_none.mpr fun a ha => firstWrite_eq_none.mp hl a (hp.subset ha)
  | some x =>
    obtain ⟨a, ha, hx⟩ := mem_of_firstWrite hl
    cases hl' : firstWrite f l' with
    | none => exact absurd (firstWrite_eq_none.mp hl' a (hp.symm.subset ha)) (by rw [hx]; exact Option.some_ne_none x)
    | some y =>
      obtain ⟨b, hb, hy⟩ := mem_of_firstWrite hl'
      rw [h b (hp.subset hb) a ha y hy x hx]

theorem lastWrite_perm (h : ∀ a ∈ l, ∀ b ∈ l, Agree f a b) (hp : l'.Perm l) : lastWrite f l' = lastWrite f l := by
  cases hl : lastWrite f l with
  | none => exact lastWrite_eq_none.mpr fun a ha => lastWrite_eq_none.mp hl a (hp.subset ha)
  | some x =>
    obtain ⟨a, ha, hx⟩ := mem_of_lastWrite hl
    cases hl' : lastWrite f l' with
    | none => exact absurd (lastWrite_eq_none.mp hl' a (hp.symm.subset ha)) (by rw [hx]; exact Option.some_ne_none x)
    | some y =>
      obtain ⟨b, hb, hy⟩ := mem_of_lastWrite hl'
      rw [h b (hp.subset hb) a ha y hy x hx]

theorem firstWrite_cons {a : α} {x : β} (h : f a = some x) (l : List α) : firstWrite f (a :: l) = some x := by
  unfold firstWrite
  rw [List.foldl_cons, Option.none_or, h]
  induction l with
  | nil => rfl
  | cons b l ih => exact ih

/-- Each write is the first one in some order, and the last one in another. -/
theorem exists_perm_firstWrite {a : α} {x : β} (ha : a ∈ l) (h : f a = some x) :
    ∃ l', l'.Perm l ∧ firstWrite f l' = some x := by
  obtain ⟨before, after, rfl⟩ := List.append_of_mem ha
  exact ⟨a :: (before ++ after), List.perm_middle.symm, firstWrite_cons h _⟩

theorem exists_perm_lastWrite {a : α} {x : β} (ha : a ∈ l) (h : f a = some x) :
    ∃ l', l'.Perm l ∧ lastWrite f l' = some x := by
  obtain ⟨before, after, rfl⟩ := List.append_of_mem ha
  refine ⟨(before ++ after) ++ [a], (List.perm_append_singleton _ _).trans List.perm_middle.symm, ?_⟩
  rw [lastWrite_concat, h, Option.some_or]

/-! ## A table of registers -/

section

variable {κ ν : Type} [DecidableEq κ] {k : κ} {ws ws' : List (κ × ν)} {m : κ → ν}

/-- The table after values have been written to keys, in order. -/
def store (ws : List (κ × ν)) (m : κ → ν) : κ → ν := ws.foldl (fun m w => Function.update m w.1 w.2) m

/-- What a write gives to a key. -/
def given (k : κ) (w : κ × ν) : Option ν := if w.1 = k then some w.2 else none

theorem given_eq_some {w : κ × ν} {x : ν} : given k w = some x ↔ w = (k, x) := by
  unfold given
  split
  case isTrue hk => rw [← hk, Option.some.injEq, Prod.ext_iff, and_iff_right rfl]
  case isFalse hk => exact ⟨fun h => (by cases h), fun h => absurd (congrArg Prod.fst h) hk⟩

@[simp] theorem store_nil : store ([] : List (κ × ν)) m = m := rfl

theorem store_append (ws ws' : List (κ × ν)) (m : κ → ν) : store (ws ++ ws') m = store ws' (store ws m) :=
  List.foldl_append

/-- The last write to a key counts. -/
theorem store_apply (ws : List (κ × ν)) (m : κ → ν) (k : κ) :
    store ws m k = (lastWrite (given k) ws).getD (m k) := by
  induction ws using List.reverseRecOn with
  | nil => rfl
  | append_singleton ws w ih =>
    rw [store_append, lastWrite_concat]
    show Function.update (store ws m) w.1 w.2 k = _
    unfold given
    by_cases hk : w.1 = k
    · subst hk
      rw [Function.update_self, if_pos rfl]
      rfl
    · rw [Function.update_of_ne (Ne.symm hk), if_neg hk, ih]
      rfl

theorem store_keeps (h : ∀ w ∈ ws, w.1 ≠ k) : store ws m k = m k := by
  have hnone : lastWrite (given k) ws = none := lastWrite_eq_none.mpr fun w hw => if_neg (h w hw)
  rw [store_apply, hnone]
  rfl

/-- What a key has in the end it had before, or it was written. -/
theorem store_mem (ws : List (κ × ν)) (m : κ → ν) (k : κ) : store ws m k = m k ∨ (k, store ws m k) ∈ ws := by
  rw [store_apply]
  cases hlast : lastWrite (given k) ws with
  | none => exact .inl rfl
  | some x =>
    obtain ⟨w, hw, hx⟩ := mem_of_lastWrite hlast
    rw [given_eq_some] at hx
    exact .inr (hx ▸ hw)

theorem store_twice (ws : List (κ × ν)) (m : κ → ν) : store (ws ++ ws) m = store ws m := by
  funext k
  rw [store_append, store_apply ws, store_apply ws m]
  cases lastWrite (given k) ws <;> rfl

/-- Writes of what a function says of their keys. -/
theorem store_of_forall {f : κ → ν} (h : ∀ w ∈ ws, w.2 = f w.1) :
    store ws m k = if k ∈ ws.map Prod.fst then f k else m k := by
  split
  case isTrue hk =>
    obtain ⟨w, hw, rfl⟩ := List.mem_map.mp hk
    rw [store_apply]
    cases hlast : lastWrite (given w.1) ws with
    | none =>
      have hgiven : given w.1 w = some w.2 := if_pos rfl
      rw [lastWrite_eq_none.mp hlast w hw] at hgiven
      cases hgiven
    | some x =>
      obtain ⟨v, hv, hx⟩ := mem_of_lastWrite hlast
      obtain rfl := given_eq_some.mp hx
      exact h _ hv
  case isFalse hk => exact store_keeps fun w hw hkey => hk (hkey ▸ List.mem_map_of_mem hw)

end

end MochaHal.Writes
