import Mathlib.Tactic

/-!
# The best and earliest

A slot that is overwritten only by what is strictly better holds, after any sequence of offers, the
first of the best among them and what it held before.
-/

namespace ITCP.Lib

variable {α κ : Type*} [LinearOrder κ]

/-- The content of a slot after an offer. -/
def keepBest (key : α → κ) (old : Option α) (new : α) : α :=
  match old with
  | none => new
  | some a => if key a < key new then new else a

/-- The content of a slot after several offers, one after the other. -/
def keepBests (key : α → κ) (old : Option α) (offers : List α) : Option α :=
  offers.foldl (fun slot new => some (keepBest key slot new)) old

/-- Nothing in the list is better, and everything in front is worse. -/
def FirstBest (key : α → κ) (l : List α) (a : α) : Prop :=
  ∃ before after, l = before ++ a :: after ∧ (∀ b ∈ before, key b < key a) ∧
    ∀ b ∈ after, key b ≤ key a

variable {key : α → κ} {l l' : List α} {a a' b : α}

namespace FirstBest

lemma singleton (key : α → κ) (a : α) : FirstBest key [a] a :=
  ⟨[], [], rfl, fun _ h => absurd h List.not_mem_nil, fun _ h => absurd h List.not_mem_nil⟩

lemma mem (h : FirstBest key l a) : a ∈ l := by
  obtain ⟨before, after, rfl, -, -⟩ := h
  exact List.mem_append_right _ List.mem_cons_self

lemma le (h : FirstBest key l a) (hb : b ∈ l) : key b ≤ key a := by
  obtain ⟨before, after, rfl, hbefore, hafter⟩ := h
  rcases List.mem_append.mp hb with hb | hb
  · exact (hbefore b hb).le
  · rcases List.mem_cons.mp hb with rfl | hb
    · exact le_rfl
    · exact hafter b hb

/-- The first element is the best, or something behind it is better. -/
lemma of_cons (h : FirstBest key (a :: l) b) :
    (b = a ∧ ∀ c ∈ l, key c ≤ key a) ∨ (key a < key b ∧ FirstBest key l b) := by
  obtain ⟨before, after, hsplit, hbefore, hafter⟩ := h
  cases before with
  | nil =>
    obtain ⟨rfl, rfl⟩ := List.cons.inj hsplit
    exact Or.inl ⟨rfl, hafter⟩
  | cons c before =>
    obtain ⟨rfl, rfl⟩ := List.cons.inj hsplit
    exact Or.inr ⟨hbefore a List.mem_cons_self,
      before, after, rfl, fun c hc => hbefore c (List.mem_cons_of_mem _ hc), hafter⟩

/-- How good the best is does not depend on the order. -/
lemma key_eq (h : FirstBest key l a) (h' : FirstBest key l' a') (hperm : l.Perm l') :
    key a = key a' :=
  le_antisymm (h'.le (hperm.mem_iff.mp h.mem)) (h.le (hperm.mem_iff.mpr h'.mem))

/-- One more offer, at the end. -/
lemma concat (h : FirstBest key l a) (new : α) :
    FirstBest key (l ++ [new]) (keepBest key (some a) new) := by
  unfold keepBest
  dsimp only
  split_ifs with hlt
  · exact ⟨l, [], rfl, fun b hb => (h.le hb).trans_lt hlt, fun _ h => absurd h List.not_mem_nil⟩
  · obtain ⟨before, after, rfl, hbefore, hafter⟩ := h
    refine ⟨before, after ++ [new], by simp, hbefore, fun b hb => ?_⟩
    rcases List.mem_append.mp hb with hb | hb
    · exact hafter b hb
    · rw [List.mem_singleton.mp hb]
      exact not_lt.mp hlt

end FirstBest

/-- A slot that was filled holds the first of the best among its old content and the offers. -/
lemma keepBests_some (key : α → κ) (a : α) (offers : List α) :
    ∃ b, keepBests key (some a) offers = some b ∧ FirstBest key (a :: offers) b := by
  induction offers using List.reverseRecOn with
  | nil => exact ⟨a, rfl, .singleton key a⟩
  | append_singleton offers new ih =>
    obtain ⟨b, hb, hbest⟩ := ih
    refine ⟨keepBest key (some b) new, ?_, hbest.concat new⟩
    unfold keepBests at hb ⊢
    rw [List.foldl_append, hb]
    rfl

/-- An empty slot holds the first of the best offers. -/
lemma keepBests_none (key : α → κ) (a : α) (offers : List α) :
    ∃ b, keepBests key none (a :: offers) = some b ∧ FirstBest key (a :: offers) b :=
  keepBests_some key a offers

/-- Whether a slot is filled, and how good its content is, does not depend on the order. -/
lemma keepBests_perm (key : α → κ) (old : Option α) (h : l.Perm l') :
    (keepBests key old l).map key = (keepBests key old l').map key := by
  cases old with
  | none =>
    cases l with
    | nil => rw [List.nil_perm.mp h]
    | cons a l =>
      obtain ⟨a', l'', rfl⟩ := List.exists_cons_of_ne_nil fun hnil : l' = [] =>
        List.cons_ne_nil a l (List.perm_nil.mp (hnil ▸ h))
      obtain ⟨b, hb, hbest⟩ := keepBests_none key a l
      obtain ⟨b', hb', hbest'⟩ := keepBests_none key a' l''
      rw [hb, hb', Option.map_some, Option.map_some, hbest.key_eq hbest' h]
  | some a =>
    obtain ⟨b, hb, hbest⟩ := keepBests_some key a l
    obtain ⟨b', hb', hbest'⟩ := keepBests_some key a l'
    rw [hb, hb', Option.map_some, Option.map_some, hbest.key_eq hbest' (h.cons a)]

end ITCP.Lib
