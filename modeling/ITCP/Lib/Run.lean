import Mathlib.Algebra.BigOperators.Group.List.Basic
import Mathlib.Tactic.Ring

/-!
# Runs of a partial step function

A system is a function `step : σ → ε → Option σ`: the event `e` is possible in `s` exactly
when `step s e` is defined. `run` folds a list of events, and the rules below turn facts about
one step into facts about every run: invariants, simulations, amortised counts, values that change
a bounded number of times, runs that end, and restrictions to conditions on the events.
-/

namespace ITCP.Lib

variable {σ ε : Type*}

/-- The state after the events `es`, when each of them was possible. -/
def run (step : σ → ε → Option σ) : σ → List ε → Option σ
  | s, [] => some s
  | s, e :: es => (step s e).bind (fun t => run step t es)

@[simp] lemma run_nil (step : σ → ε → Option σ) (s : σ) : run step s [] = some s := rfl

lemma run_cons (step : σ → ε → Option σ) (s : σ) (e : ε) (es : List ε) :
    run step s (e :: es) = (step s e).bind (fun t => run step t es) := rfl

lemma run_append (step : σ → ε → Option σ) (s : σ) (es fs : List ε) :
    run step s (es ++ fs) = (run step s es).bind (fun t => run step t fs) := by
  induction es generalizing s with
  | nil => rfl
  | cons e es ih =>
    rw [List.cons_append, run_cons, run_cons, Option.bind_assoc]
    congr 1
    funext t
    exact ih t

/-- A loop with a partial body is a run. -/
lemma run_eq_foldlM (step : σ → ε → Option σ) (s : σ) (es : List ε) :
    run step s es = es.foldlM step s := by
  induction es generalizing s with
  | nil => rfl
  | cons e es ih =>
    rw [run_cons, List.foldlM_cons]
    exact congrArg _ (funext ih)

lemma run_cons_eq_some {step : σ → ε → Option σ} {s t : σ} {e : ε} {es : List ε} :
    run step s (e :: es) = some t ↔ ∃ u, step s e = some u ∧ run step u es = some t := by
  rw [run_cons, Option.bind_eq_some_iff]

/-- The invariant rule for runs whose events all satisfy `P`. -/
theorem run_invariant_of {step : σ → ε → Option σ} {I : σ → Prop} (P : ε → Prop)
    (hstep : ∀ s e t, P e → I s → step s e = some t → I t)
    {s t : σ} {es : List ε} (hes : ∀ e ∈ es, P e) (hs : I s) (h : run step s es = some t) :
    I t := by
  induction es generalizing s with
  | nil =>
    rw [run_nil, Option.some.injEq] at h
    exact h ▸ hs
  | cons e es ih =>
    obtain ⟨u, hu, ht⟩ := run_cons_eq_some.mp h
    exact ih (fun e he => hes e (List.mem_cons_of_mem _ he))
      (hstep s e u (hes e List.mem_cons_self) hs hu) ht

/-- The invariant rule: what every step preserves holds at the end of every run. -/
theorem run_invariant {step : σ → ε → Option σ} {I : σ → Prop}
    (hstep : ∀ s e t, I s → step s e = some t → I t)
    {s t : σ} {es : List ε} (hs : I s) (h : run step s es = some t) : I t :=
  run_invariant_of (fun _ => True) (fun s e t _ => hstep s e t) (fun _ _ => trivial) hs h

/-- The simulation rule: when every step is followed along `f` by a run of another system, on states
that satisfy an invariant, then so is every run. -/
theorem run_simulation {σ' ε' : Type*} {step : σ → ε → Option σ} {step' : σ' → ε' → Option σ'}
    {I : σ → Prop} (f : σ → σ') (hinv : ∀ s e t, I s → step s e = some t → I t)
    (hsim : ∀ s e t, I s → step s e = some t → ∃ es', run step' (f s) es' = some (f t))
    {s t : σ} {es : List ε} (hs : I s) (h : run step s es = some t) :
    ∃ es', run step' (f s) es' = some (f t) := by
  induction es generalizing s with
  | nil =>
    rw [run_nil, Option.some.injEq] at h
    exact ⟨[], by rw [h, run_nil]⟩
  | cons e es ih =>
    obtain ⟨u, hu, ht⟩ := run_cons_eq_some.mp h
    obtain ⟨es₁, h₁⟩ := hsim s e u hs hu
    obtain ⟨es₂, h₂⟩ := ih (hinv s e u hs hu) ht
    exact ⟨es₁ ++ es₂, by rw [run_append, h₁, Option.bind_some, h₂]⟩

/-- Amortised counting: if every step that satisfies `p` is paid for out of the potential `Φ`, and
only steps that satisfy `q` raise it, by at most `k`, then a run has no more steps of the first
kind than the initial potential and its steps of the second kind pay for. -/
theorem run_count {step : σ → ε → Option σ} {I : σ → Prop} (P : ε → Prop) (Φ : σ → ℕ)
    (p q : ε → Bool) (k : ℕ) (hinv : ∀ s e t, P e → I s → step s e = some t → I t)
    (hstep : ∀ s e t, P e → I s → step s e = some t →
      Φ t + (if p e then 1 else 0) ≤ Φ s + if q e then k else 0)
    {s t : σ} {es : List ε} (hes : ∀ e ∈ es, P e) (hs : I s) (h : run step s es = some t) :
    Φ t + es.countP p ≤ Φ s + es.countP q * k := by
  induction es generalizing s with
  | nil =>
    rw [run_nil, Option.some.injEq] at h
    simp [h]
  | cons e es ih =>
    obtain ⟨u, hu, ht⟩ := run_cons_eq_some.mp h
    have he := hes e List.mem_cons_self
    have h1 := hstep s e u he hs hu
    have h2 := ih (fun e he => hes e (List.mem_cons_of_mem _ he)) (hinv s e u he hs hu) ht
    have hk : (if q e then k else 0) = (if q e then 1 else 0) * k := by split_ifs <;> simp
    rw [List.countP_cons, List.countP_cons, Nat.add_mul, ← hk]
    omega

/-- Where every step lowers a potential, a run has no more steps than the potential it uses up. -/
theorem run_length_le {step : σ → ε → Option σ} {I : σ → Prop} (Φ : σ → ℕ)
    (hinv : ∀ s e t, I s → step s e = some t → I t)
    (hstep : ∀ s e t, I s → step s e = some t → Φ t < Φ s) {s t : σ} {es : List ε} (hs : I s)
    (h : run step s es = some t) : es.length + Φ t ≤ Φ s := by
  induction es generalizing s with
  | nil =>
    rw [run_nil, Option.some.injEq] at h
    rw [h, List.length_nil, Nat.zero_add]
  | cons e es ih =>
    obtain ⟨u, hu, ht⟩ := run_cons_eq_some.mp h
    have hlt := hstep s e u hs hu
    have hle := ih (hinv s e u hs hu) ht
    rw [List.length_cons]
    omega

/-- There, steps can be taken until none is possible. -/
theorem exists_run_stuck {step : σ → ε → Option σ} {I : σ → Prop} (Φ : σ → ℕ)
    (hinv : ∀ s e t, I s → step s e = some t → I t)
    (hstep : ∀ s e t, I s → step s e = some t → Φ t < Φ s) {s : σ} (hs : I s) :
    ∃ es t, run step s es = some t ∧ ∀ e, step t e = none := by
  induction hn : Φ s using Nat.strong_induction_on generalizing s with
  | _ n ih =>
    by_cases hstuck : ∀ e, step s e = none
    · exact ⟨[], s, run_nil step s, hstuck⟩
    · obtain ⟨e, he⟩ := not_forall.mp hstuck
      obtain ⟨u, hu⟩ := Option.ne_none_iff_exists'.mp he
      obtain ⟨es, t, hrun, ht⟩ := ih (Φ u) (hn ▸ hstep s e u hs hu) (hinv s e u hs hu) rfl
      exact ⟨e :: es, t, run_cons_eq_some.mpr ⟨u, hu, hrun⟩, ht⟩

/-- How often the value of `f` changes along a run. -/
def changes {α : Type*} [DecidableEq α] (f : σ → α) (step : σ → ε → Option σ) : σ → List ε → ℕ
  | _, [] => 0
  | s, e :: es => match step s e with
    | none => 0
    | some t => (if f t = f s then 0 else 1) + changes f step t es

/-- A value changes no more often than a potential that every change lowers can pay for. -/
theorem changes_le {α : Type*} [DecidableEq α] {f : σ → α} {step : σ → ε → Option σ} (Φ : α → ℕ)
    (hstep : ∀ s e t, step s e = some t → f t ≠ f s → Φ (f t) < Φ (f s)) (s : σ) (es : List ε) :
    changes f step s es ≤ Φ (f s) := by
  induction es generalizing s with
  | nil => exact Nat.zero_le _
  | cons e es ih =>
    unfold changes
    cases ht : step s e with
    | none => exact Nat.zero_le _
    | some t =>
      have hrest := ih t
      dsimp only
      split_ifs with hsame
      · rw [hsame] at hrest
        omega
      · have hlt := hstep s e t ht hsame
        omega

/-- The system restricted to the events that satisfy the condition `C` in the current state. -/
def restrict (C : σ → ε → Prop) [∀ s e, Decidable (C s e)] (step : σ → ε → Option σ) :
    σ → ε → Option σ :=
  fun s e => if C s e then step s e else none

lemma restrict_eq_some {C : σ → ε → Prop} [∀ s e, Decidable (C s e)]
    {step : σ → ε → Option σ} {s t : σ} {e : ε} :
    restrict C step s e = some t ↔ C s e ∧ step s e = some t := by
  unfold restrict
  split <;> simp_all

/-- A restricted run is a run. -/
lemma run_of_restrict {C : σ → ε → Prop} [∀ s e, Decidable (C s e)] {step : σ → ε → Option σ}
    {s t : σ} {es : List ε} (h : run (restrict C step) s es = some t) :
    run step s es = some t := by
  induction es generalizing s with
  | nil => exact h
  | cons e es ih =>
    obtain ⟨u, hu, ht⟩ := run_cons_eq_some.mp h
    exact run_cons_eq_some.mpr ⟨u, (restrict_eq_some.mp hu).2, ih ht⟩

lemma run_restrict_mono {C D : σ → ε → Prop} [∀ s e, Decidable (C s e)] [∀ s e, Decidable (D s e)]
    {step : σ → ε → Option σ} (hCD : ∀ s e, C s e → D s e) {s t : σ} {es : List ε}
    (h : run (restrict C step) s es = some t) : run (restrict D step) s es = some t := by
  induction es generalizing s with
  | nil => exact h
  | cons e es ih =>
    obtain ⟨u, hu, ht⟩ := run_cons_eq_some.mp h
    obtain ⟨hc, hstep⟩ := restrict_eq_some.mp hu
    exact run_cons_eq_some.mpr ⟨u, restrict_eq_some.mpr ⟨hCD s e hc, hstep⟩, ih ht⟩

/-- A run either meets the condition all along, or leads to where the first step that breaks it
leads. -/
theorem run_restrict_or {C : σ → ε → Prop} [∀ s e, Decidable (C s e)] {step : σ → ε → Option σ}
    {I J : σ → Prop} (P : ε → Prop) (hinv : ∀ s e t, P e → I s → C s e → step s e = some t → I t)
    (hbreak : ∀ s e t, P e → I s → ¬C s e → step s e = some t → J t)
    (hlast : ∀ s e t, P e → J s → step s e = some t → J t)
    {s t : σ} {es : List ε} (hes : ∀ e ∈ es, P e) (hs : I s) (h : run step s es = some t) :
    run (restrict C step) s es = some t ∧ I t ∨ J t := by
  induction es generalizing s with
  | nil =>
    rw [run_nil, Option.some.injEq] at h
    exact Or.inl ⟨by rw [h, run_nil], h ▸ hs⟩
  | cons e es ih =>
    obtain ⟨u, hu, hrun⟩ := run_cons_eq_some.mp h
    have he := hes e List.mem_cons_self
    have hes' : ∀ e ∈ es, P e := fun e he => hes e (List.mem_cons_of_mem _ he)
    by_cases hc : C s e
    · refine (ih hes' (hinv s e u he hs hc hu) hrun).imp_left fun ⟨hrestrict, ht⟩ => ⟨?_, ht⟩
      exact run_cons_eq_some.mpr ⟨u, restrict_eq_some.mpr ⟨hc, hu⟩, hrestrict⟩
    · exact Or.inr (run_invariant_of P hlast hes' (hbreak s e u he hs hc hu) hrun)

/-- A run is a restricted one if whatever breaks the condition leaves a lasting mark. -/
theorem run_restrict_of {C : σ → ε → Prop} [∀ s e, Decidable (C s e)] {step : σ → ε → Option σ}
    {I J : σ → Prop} (hinv : ∀ s e t, I s → step s e = some t → I t)
    (hlast : ∀ s e t, I s → step s e = some t → J t → J s)
    (hmark : ∀ s e t, I s → step s e = some t → J t → C s e)
    {s t : σ} {es : List ε} (hs : I s) (h : run step s es = some t) (ht : J t) :
    J s ∧ run (restrict C step) s es = some t := by
  induction es generalizing s with
  | nil =>
    rw [run_nil, Option.some.injEq] at h
    exact ⟨h ▸ ht, by rw [h, run_nil]⟩
  | cons e es ih =>
    obtain ⟨u, hu, hrun⟩ := run_cons_eq_some.mp h
    obtain ⟨hgood, hrestrict⟩ := ih (hinv s e u hs hu) hrun
    exact ⟨hlast s e u hs hu hgood, run_cons_eq_some.mpr
      ⟨u, restrict_eq_some.mpr ⟨hmark s e u hs hu hgood, hu⟩, hrestrict⟩⟩

end ITCP.Lib
