import Mathlib.Data.List.Chain
import Mathlib.Data.List.Pairwise
import Mathlib.Order.Basic

/-!
# Walks along which a rank rises

A relation that only relates a vertex to one of larger rank has no cycles, and where the rank is
bounded its walks end: they can be continued until they reach a vertex that is a goal.
-/

namespace ITCP.Lib

variable {α : Type*} {R : α → α → Prop} {rank : α → ℕ}

/-- A walk on which the rank rises visits no vertex twice. -/
theorem nodup_of_rank (hrank : ∀ a b, R a b → rank a < rank b) {l : List α} (h : l.IsChain R) :
    l.Nodup := by
  have hlt : (l.map rank).IsChain (· < ·) := List.isChain_map rank |>.mpr (h.imp hrank)
  have hsorted : l.Pairwise (fun a b => rank a < rank b) := List.pairwise_map.mp hlt.pairwise
  exact List.Pairwise.imp (fun hab heq => ne_of_lt hab (congrArg rank heq)) hsorted

/-- A walk on which the rank falls is no longer than the rank of the vertex it starts from. -/
theorem length_le_of_rank {P : α → Prop} (hrank : ∀ a b, P a → P b → R a b → rank b < rank a) {a : α}
    {l : List α} (h : (a :: l).IsChain R) (hP : ∀ b ∈ a :: l, P b) : l.length ≤ rank a := by
  induction l generalizing a with
  | nil => exact Nat.zero_le _
  | cons b l ih =>
    obtain ⟨hab, hl⟩ := List.isChain_cons_cons.mp h
    have hle := ih hl fun c hc => hP c (List.mem_cons_of_mem _ hc)
    have hb := hP b (List.mem_cons_of_mem _ List.mem_cons_self)
    have hlt := hrank a b (hP a List.mem_cons_self) hb hab
    rw [List.length_cons]
    omega

/-- Where every vertex with the property `P` satisfies `G` or has a successor with that property, and
the rank is bounded, a walk leads from each of them to one that satisfies `G`. -/
theorem exists_walk {P G : α → Prop} {bound : ℕ} (hrank : ∀ a b, R a b → rank a < rank b)
    (hbound : ∀ a, P a → rank a ≤ bound) (hnext : ∀ a, P a → G a ∨ ∃ b, R a b ∧ P b) {a : α}
    (ha : P a) : ∃ l, (a :: l).IsChain R ∧ G ((a :: l).getLast (List.cons_ne_nil a l)) := by
  -- the room left above the rank shrinks with every step
  induction hn : bound - rank a using Nat.strong_induction_on generalizing a with
  | _ n ih =>
    rcases hnext a ha with hgoal | ⟨b, hab, hb⟩
    · exact ⟨[], List.isChain_singleton a, hgoal⟩
    · have hlt := hrank a b hab
      have hle := hbound b hb
      obtain ⟨l, hl, hlast⟩ := ih (bound - rank b) (by omega) hb rfl
      refine ⟨b :: l, List.isChain_cons_cons.mpr ⟨hab, hl⟩, ?_⟩
      rwa [List.getLast_cons_cons]

end ITCP.Lib
