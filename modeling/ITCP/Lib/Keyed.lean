import Mathlib.Tactic

/-!
# Entries with unique keys

A list whose entries have different keys. A loop that stops at the first entry with a key, one that
keeps the last and one that collects them all find the same entry.
-/

namespace ITCP.Lib

variable {α β κ : Type*} [DecidableEq κ] {key : α → κ} {l : List α} {a : α} {k : κ}

/-- The first entry with the key. -/
def findKey (key : α → κ) (l : List α) (k : κ) : Option α := l.find? (fun a => k = key a)

lemma findKey_eq_none : findKey key l k = none ↔ k ∉ l.map key := by
  unfold findKey
  rw [List.find?_eq_none]
  simp only [decide_eq_true_eq, List.mem_map, not_exists, not_and]
  exact forall₂_congr fun a _ => not_congr eq_comm

lemma findKey_cons_of_eq (l : List α) (h : k = key a) : findKey key (a :: l) k = some a :=
  List.find?_cons_of_pos (decide_eq_true h)

lemma findKey_cons_of_ne (l : List α) (h : k ≠ key a) :
    findKey key (a :: l) k = findKey key l k :=
  List.find?_cons_of_neg (by simpa using h)

lemma findKey_of_mem (h : (l.map key).Nodup) (ha : a ∈ l) : findKey key l (key a) = some a := by
  obtain ⟨l₁, l₂, rfl⟩ := List.append_of_mem ha
  rw [List.map_append, List.map_cons, List.nodup_middle, List.nodup_cons] at h
  have hnone : findKey key l₁ (key a) = none :=
    findKey_eq_none.mpr fun hmem => h.1 (List.mem_append_left _ hmem)
  unfold findKey at hnone ⊢
  rw [List.find?_append, hnone, Option.none_or]
  exact List.find?_cons_of_pos (decide_eq_true rfl)

lemma findKey_eq_some (h : (l.map key).Nodup) : findKey key l k = some a ↔ a ∈ l ∧ key a = k := by
  constructor
  · intro ha
    have hkey : decide (k = key a) = true := List.find?_some (p := fun a => decide (k = key a)) ha
    exact ⟨List.mem_of_find?_eq_some ha, (of_decide_eq_true hkey).symm⟩
  · rintro ⟨ha, rfl⟩
    exact findKey_of_mem h ha

/-- A loop that keeps the last match. -/
lemma foldl_eq_findKey (h : (l.map key).Nodup) (g : α → β) (r : β) :
    l.foldl (fun r a => if k = key a then g a else r) r = ((findKey key l k).map g).getD r := by
  induction l generalizing r with
  | nil => rfl
  | cons a l ih =>
    rw [List.map_cons, List.nodup_cons] at h
    rw [List.foldl_cons, ih h.2]
    by_cases hk : k = key a
    · have hnone : findKey key l k = none := findKey_eq_none.mpr (hk ▸ h.1)
      rw [if_pos hk, hnone, findKey_cons_of_eq l hk]
      rfl
    · rw [if_neg hk, findKey_cons_of_ne l hk]

/-- A loop that collects all matches. -/
lemma filter_eq_findKey (h : (l.map key).Nodup) (k : κ) :
    l.filter (fun a => k = key a) = (findKey key l k).toList := by
  induction l with
  | nil => rfl
  | cons a l ih =>
    rw [List.map_cons, List.nodup_cons] at h
    by_cases hk : k = key a
    · have hnone : findKey key l k = none := findKey_eq_none.mpr (hk ▸ h.1)
      rw [List.filter_cons_of_pos (by simpa using hk), ih h.2, hnone, findKey_cons_of_eq l hk]
      rfl
    · rw [List.filter_cons_of_neg (by simpa using hk), ih h.2, findKey_cons_of_ne l hk]

omit [DecidableEq κ] in
lemma nodup_concat (h : (l.map key).Nodup) (ha : key a ∉ l.map key) :
    ((l ++ [a]).map key).Nodup := by
  rw [List.map_append, List.map_singleton, ← List.concat_eq_append]
  exact h.concat ha

/-- A change of the entries with a key is a change of the one entry. -/
lemma map_eq_set (h : (l.map key).Nodup) {i : ℕ} (hi : l[i]? = some a) (f : α → α) :
    l.map (fun b => if key a = key b then f b else b) = l.set i (f a) := by
  have hlt : i < l.length := (List.getElem?_eq_some_iff.mp hi).1
  refine List.ext_getElem? fun j => ?_
  rw [List.getElem?_map, List.getElem?_set]
  by_cases hij : i = j
  · subst hij
    rw [if_pos rfl, if_pos hlt, hi, Option.map_some, if_pos rfl]
  rw [if_neg hij]
  cases hj : l[j]? with
  | none => rfl
  | some b =>
    have hne : key a ≠ key b := by
      intro heq
      have hkeys : (l.map key)[i]? = (l.map key)[j]? := by
        rw [List.getElem?_map, List.getElem?_map, hi, hj, Option.map_some, Option.map_some, heq]
      exact hij ((List.getElem?_inj (by rwa [List.length_map]) h).mp hkeys)
    rw [Option.map_some, if_neg hne]

end ITCP.Lib
