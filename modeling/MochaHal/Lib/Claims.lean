import Mathlib.Tactic.Common
import Mathlib.Logic.Function.Basic
import Mathlib.Data.List.Perm.Basic
import Mathlib.Data.List.Nodup

/-! A table of resources and their owners, and a list of claims to them.  `Claimed` says that
no resource is claimed twice and that a claim names the owner; an owner that claims may then
release what it claims, and hits nobody else. -/

namespace MochaHal

variable {N O : Type}

/-- The claims to resources agree with their owners, and no resource is claimed twice. -/
structure Claimed (owner : N → Option O) (claims : List (N × O)) : Prop where
  owned : ∀ c ∈ claims, owner c.1 = some c.2
  nodup : (claims.map Prod.fst).Nodup

namespace Claimed

variable {owner : N → Option O} {claims claims' : List (N × O)} {n : N} {o : O}

theorem nil (owner : N → Option O) : Claimed owner [] :=
  ⟨fun _ h => absurd h List.not_mem_nil, List.nodup_nil⟩

theorem perm (h : Claimed owner claims) (hperm : claims.Perm claims') : Claimed owner claims' :=
  ⟨fun c hc => h.owned c (hperm.symm.subset hc), (hperm.map Prod.fst).nodup_iff.mp h.nodup⟩

theorem tail {c : N × O} (h : Claimed owner (c :: claims)) : Claimed owner claims :=
  ⟨fun c' hc' => h.owned c' (List.mem_cons_of_mem _ hc'), (List.nodup_cons.mp h.nodup).2⟩

theorem not_mem_of_free (h : Claimed owner claims) (hfree : owner n = none) : n ∉ claims.map Prod.fst := by
  intro hn
  obtain ⟨c, hc, rfl⟩ := List.mem_map.mp hn
  cases hfree.symm.trans (h.owned c hc)

variable [DecidableEq N]

/-- The table may change where there is no claim. -/
theorem update (h : Claimed owner claims) (hn : n ∉ claims.map Prod.fst) (x : Option O) :
    Claimed (Function.update owner n x) claims := by
  refine ⟨fun c hc => ?_, h.nodup⟩
  have hne : c.1 ≠ n := fun heq => hn (heq ▸ List.mem_map_of_mem hc)
  rw [Function.update_of_ne hne]
  exact h.owned c hc

/-- Something free is taken, and claimed. -/
theorem acquire (h : Claimed owner claims) (hfree : owner n = none) (o : O) :
    Claimed (Function.update owner n (some o)) ((n, o) :: claims) := by
  have hn := h.not_mem_of_free hfree
  have hupdate := h.update hn (some o)
  refine ⟨fun c hc => ?_, List.nodup_cons.mpr ⟨hn, h.nodup⟩⟩
  rcases List.mem_cons.mp hc with rfl | hc
  · exact Function.update_self _ _ _
  · exact hupdate.owned c hc

/-- Something free is taken by one that does not claim. -/
theorem take (h : Claimed owner claims) (hfree : owner n = none) (o : O) :
    Claimed (Function.update owner n (some o)) claims := h.update (h.not_mem_of_free hfree) _

/-- What is claimed is released, with its claim. -/
theorem release (h : Claimed owner ((n, o) :: claims)) : Claimed (Function.update owner n none) claims :=
  h.tail.update (List.nodup_cons.mp h.nodup).1 none

/-- One that claims nothing releases what it owns. -/
theorem drop (h : Claimed owner claims) (howner : owner n = some o) (hnone : ∀ c ∈ claims, c.2 ≠ o) :
    Claimed (Function.update owner n none) claims := by
  refine h.update (fun hn => ?_) none
  obtain ⟨c, hc, rfl⟩ := List.mem_map.mp hn
  exact hnone c hc (Option.some.inj ((h.owned c hc).symm.trans howner))

end Claimed

end MochaHal
