import Mathlib.Logic.Basic
import Mathlib.Tactic.Ring

/-!
# Distances from a set of sources

Walks that start from a source, counted in steps. A height that is largest at the sources and loses
at most one along every edge is at least what the distance leaves of it; where it is also no more
than that, it measures the distance.
-/

namespace ITCP.Lib

variable {α : Type*}

/-- A walk of `k` steps along `R` leads to the vertex from one that satisfies `A`. -/
inductive Steps (R : α → α → Prop) (A : α → Prop) : ℕ → α → Prop
  | source {a : α} (h : A a) : Steps R A 0 a
  | next {k : ℕ} {a b : α} (h : Steps R A k a) (hab : R a b) : Steps R A (k + 1) b

/-- The shortest such walk takes `k` steps. -/
def IsDist (R : α → α → Prop) (A : α → Prop) (k : ℕ) (a : α) : Prop :=
  Steps R A k a ∧ ∀ m, Steps R A m a → k ≤ m

variable {R : α → α → Prop} {A B : α → Prop}

lemma Steps.mono (hAB : ∀ a, A a → B a) {k : ℕ} {a : α} (h : Steps R A k a) : Steps R B k a := by
  induction h with
  | source h => exact .source (hAB _ h)
  | next _ hab ih => exact .next ih hab

lemma IsDist.unique {k m : ℕ} {a : α} (h : IsDist R A k a) (h' : IsDist R A m a) : k = m :=
  Nat.le_antisymm (h.2 m h'.1) (h'.2 k h.1)

section Height

variable {H : ℕ} {height : α → ℕ}

/-- What is left of the height after a walk from a source. -/
lemma Steps.le_height (hsource : ∀ a, A a → H ≤ height a)
    (hrelax : ∀ a b, R a b → 2 ≤ height a → height a ≤ height b + 1) {k : ℕ} {a : α}
    (h : Steps R A k a) (hk : k < H) : H - k ≤ height a := by
  induction h with
  | source h => exact hsource _ h
  | @next k a b _ hab ih =>
    have ha := ih (by omega)
    have hb := hrelax a b hab (by omega)
    omega

/-- A height that no edge can raise is the distance, as far as it reaches. -/
theorem isDist_of_relaxed (hsource : ∀ a, A a → H ≤ height a)
    (hrelax : ∀ a b, R a b → 2 ≤ height a → height a ≤ height b + 1) {a : α}
    (ha : Steps R A (H - height a) a) (hpos : 0 < height a) (hle : height a ≤ H) :
    IsDist R A (H - height a) a := by
  refine ⟨ha, fun m hm => ?_⟩
  by_cases hmH : m < H
  · have hleft := hm.le_height hsource hrelax hmH
    omega
  · omega

end Height

end ITCP.Lib
