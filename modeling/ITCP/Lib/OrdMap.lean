import Mathlib.Tactic
import ITCP.Lib.Keyed

/-!
# Ordered maps

A finite map kept as a list of entries with strictly increasing keys: the container that is
iterated in key order, whose insertion keeps an existing entry, and whose first entry with a
given property is found by a scan.
-/

namespace ITCP.Lib

/-- A finite map with its entries in strictly increasing key order. -/
structure OrdMap (κ ν : Type*) [LinearOrder κ] where
  entries : List (κ × ν)
  sorted : entries.Pairwise (fun a b => a.1 < b.1)

namespace OrdMap

variable {κ ν : Type*} [LinearOrder κ]

def empty : OrdMap κ ν := ⟨[], List.Pairwise.nil⟩

def find? (m : OrdMap κ ν) (k : κ) : Option ν :=
  (m.entries.find? (fun a => a.1 = k)).map Prod.snd

/-- The first entry, in key order, that satisfies `p`. -/
def search (m : OrdMap κ ν) (p : κ → ν → Bool) : Option (κ × ν) :=
  m.entries.find? (fun a => p a.1 a.2)

/-- Insertion into a list of entries; an entry with the same key is kept. -/
def insertEntry (k : κ) (v : ν) : List (κ × ν) → List (κ × ν)
  | [] => [(k, v)]
  | a :: l => if k < a.1 then (k, v) :: a :: l else if k = a.1 then a :: l
      else a :: insertEntry k v l

lemma mem_insertEntry_imp {k : κ} {v : ν} {l : List (κ × ν)} {a : κ × ν}
    (h : a ∈ insertEntry k v l) : a = (k, v) ∨ a ∈ l := by
  induction l with
  | nil => exact Or.inl (List.mem_singleton.mp h)
  | cons b l ih =>
    unfold insertEntry at h
    split_ifs at h
    · exact List.mem_cons.mp h
    · exact Or.inr h
    · rcases List.mem_cons.mp h with rfl | h
      · exact Or.inr List.mem_cons_self
      · exact (ih h).imp_right (List.mem_cons_of_mem b)

lemma insertEntry_sorted (k : κ) (v : ν) {l : List (κ × ν)}
    (h : l.Pairwise (fun a b => a.1 < b.1)) :
    (insertEntry k v l).Pairwise (fun a b => a.1 < b.1) := by
  induction l with
  | nil => exact List.pairwise_singleton _ _
  | cons b l ih =>
    obtain ⟨hb, hl⟩ := List.pairwise_cons.mp h
    unfold insertEntry
    split_ifs with hlt heq
    · refine List.pairwise_cons.mpr ⟨fun a ha => ?_, h⟩
      rcases List.mem_cons.mp ha with rfl | ha
      · exact hlt
      · exact lt_trans hlt (hb a ha)
    · exact h
    · refine List.pairwise_cons.mpr ⟨fun a ha => ?_, ih hl⟩
      rcases mem_insertEntry_imp ha with rfl | ha
      · exact lt_of_le_of_ne (not_lt.mp hlt) (Ne.symm heq)
      · exact hb a ha

/-- Insertion that leaves an existing entry for `k` as it is. -/
def insert (m : OrdMap κ ν) (k : κ) (v : ν) : OrdMap κ ν :=
  ⟨insertEntry k v m.entries, insertEntry_sorted k v m.sorted⟩

/-- The value under `k` replaced by its image under `f`. -/
def modify (m : OrdMap κ ν) (k : κ) (f : ν → ν) : OrdMap κ ν where
  entries := m.entries.map (fun a => if a.1 = k then (a.1, f a.2) else a)
  sorted := by
    rw [List.pairwise_map]
    refine m.sorted.imp (fun h => ?_)
    split_ifs <;> exact h

lemma keys_nodup (m : OrdMap κ ν) : (m.entries.map Prod.fst).Nodup :=
  List.pairwise_map.mpr (m.sorted.imp fun h => ne_of_lt h)

lemma find?_eq_findKey (m : OrdMap κ ν) (k : κ) :
    m.find? k = (findKey Prod.fst m.entries k).map Prod.snd := by
  have hkey : ∀ a : κ × ν, decide (a.1 = k) = decide (k = a.1) :=
    fun a => decide_eq_decide.mpr eq_comm
  simp only [find?, findKey, hkey]

lemma find?_eq_some {m : OrdMap κ ν} {k : κ} {v : ν} :
    m.find? k = some v ↔ (k, v) ∈ m.entries := by
  rw [find?_eq_findKey, Option.map_eq_some_iff]
  constructor
  · rintro ⟨a, ha, rfl⟩
    obtain ⟨hmem, rfl⟩ := (findKey_eq_some m.keys_nodup).mp ha
    exact hmem
  · intro h
    exact ⟨(k, v), findKey_of_mem m.keys_nodup h, rfl⟩

lemma find?_eq_none {m : OrdMap κ ν} {k : κ} :
    m.find? k = none ↔ ∀ v, (k, v) ∉ m.entries := by
  constructor
  · intro h v hv
    rw [find?_eq_some.mpr hv] at h
    cases h
  · intro h
    cases hf : m.find? k with
    | none => rfl
    | some v => exact absurd (find?_eq_some.mp hf) (h v)

@[simp] lemma find?_empty (k : κ) : (empty : OrdMap κ ν).find? k = none := rfl

lemma find?_insert (m : OrdMap κ ν) (k k' : κ) (v : ν) :
    (m.insert k v).find? k' = if k' = k then some ((m.find? k).getD v) else m.find? k' := by
  obtain ⟨l, hl⟩ := m
  simp only [find?, insert]
  induction l with
  | nil => by_cases hk : k' = k <;> simp [insertEntry, List.find?, hk, eq_comm]
  | cons b l ih =>
    obtain ⟨hb, hl'⟩ := List.pairwise_cons.mp hl
    have ih := ih hl'
    rcases lt_trichotomy k b.1 with hlt | heq | hgt
    · have hn : (b :: l).find? (fun a => a.1 = k) = none := by
        refine List.find?_eq_none.mpr (fun a ha => ?_)
        rcases List.mem_cons.mp ha with rfl | ha
        · simpa using ne_of_gt hlt
        · simpa using ne_of_gt (lt_trans hlt (hb a ha))
      rw [insertEntry, if_pos hlt, hn]
      by_cases hk : k' = k
      · simp [hk]
      · simp [List.find?_cons, hk, Ne.symm hk]
    · rw [insertEntry, if_neg (by simp [heq]), if_pos heq]
      by_cases hk : k' = k
      · simp [hk, heq]
      · rw [if_neg hk]
    · have hne : ¬b.1 = k := ne_of_lt hgt
      rw [insertEntry, if_neg (not_lt_of_gt hgt), if_neg (Ne.symm hne)]
      simp only [List.find?_cons]
      by_cases hb' : b.1 = k'
      · have hk : ¬k' = k := fun h => hne (hb'.trans h)
        simp [hb', hk]
      · simpa [hb', hne] using ih

@[simp] lemma find?_insert_self {m : OrdMap κ ν} {k : κ} (v : ν) (h : m.find? k = none) :
    (m.insert k v).find? k = some v := by
  rw [find?_insert, if_pos rfl, h, Option.getD_none]

lemma find?_insert_of_ne (m : OrdMap κ ν) {k k' : κ} (v : ν) (h : k' ≠ k) :
    (m.insert k v).find? k' = m.find? k' := by
  rw [find?_insert, if_neg h]

lemma find?_insert_of_some {m : OrdMap κ ν} {k : κ} {w : ν} (h : m.find? k = some w) (v : ν)
    (k' : κ) : (m.insert k v).find? k' = m.find? k' := by
  rw [find?_insert]
  split_ifs with hk
  · rw [h, hk, h, Option.getD_some]
  · rfl

lemma isSome_find?_insert (m : OrdMap κ ν) (k k' : κ) (v : ν) :
    ((m.insert k v).find? k').isSome = (decide (k' = k) || (m.find? k').isSome) := by
  rw [find?_insert]
  split_ifs with h
  · simp [h]
  · simp [h]

lemma find?_modify (m : OrdMap κ ν) (k k' : κ) (f : ν → ν) :
    (m.modify k f).find? k' = if k' = k then (m.find? k).map f else m.find? k' := by
  obtain ⟨l, hl⟩ := m
  simp only [find?, modify]
  induction l with
  | nil => simp
  | cons b l ih =>
    have ih := ih (List.pairwise_cons.mp hl).2
    simp only [List.map_cons, List.find?_cons]
    by_cases hb : b.1 = k
    · by_cases hk : k' = k
      · simp [hb, hk]
      · have hne : ¬b.1 = k' := fun h => hk (h.symm.trans hb)
        simpa [hb, hk, Ne.symm hk] using ih
    · by_cases hk : k' = k
      · simpa [hb, hk] using ih
      · by_cases hb' : b.1 = k'
        · simp [hb', hk]
        · simpa [hb, hb', hk] using ih

@[simp] lemma find?_modify_self (m : OrdMap κ ν) (k : κ) (f : ν → ν) :
    (m.modify k f).find? k = (m.find? k).map f := by
  rw [find?_modify, if_pos rfl]

lemma find?_modify_of_ne (m : OrdMap κ ν) {k k' : κ} (f : ν → ν) (h : k' ≠ k) :
    (m.modify k f).find? k' = m.find? k' := by
  rw [find?_modify, if_neg h]

@[simp] lemma isSome_find?_modify (m : OrdMap κ ν) (k k' : κ) (f : ν → ν) :
    ((m.modify k f).find? k').isSome = (m.find? k').isSome := by
  rw [find?_modify]
  split_ifs with h
  · rw [Option.isSome_map, h]
  · rfl

/-- A value after a change is the one before it, or its image. -/
lemma find?_modify_cases {m : OrdMap κ ν} {k k' : κ} {f : ν → ν} {v : ν}
    (h : (m.modify k f).find? k' = some v) :
    k' ≠ k ∧ m.find? k' = some v ∨ k' = k ∧ ∃ w, m.find? k = some w ∧ v = f w := by
  rw [find?_modify] at h
  split_ifs at h with hk
  · obtain ⟨w, hw, rfl⟩ := Option.map_eq_some_iff.mp h
    exact Or.inr ⟨hk, w, hw, rfl⟩
  · exact Or.inl ⟨hk, h⟩

/-- A change of a value adds no key. -/
lemma exists_of_find?_modify {m : OrdMap κ ν} {k k' : κ} {f : ν → ν} {v : ν}
    (h : (m.modify k f).find? k' = some v) : ∃ w, m.find? k' = some w := by
  rcases find?_modify_cases h with ⟨-, hv⟩ | ⟨rfl, w, hw, -⟩
  · exact ⟨v, hv⟩
  · exact ⟨w, hw⟩

/-- A value after an insertion was there before it, or it is the new one. -/
lemma find?_insert_cases {m : OrdMap κ ν} {k k' : κ} {w v : ν}
    (h : (m.insert k w).find? k' = some v) :
    m.find? k' = some v ∨ m.find? k = none ∧ k' = k ∧ v = w := by
  rw [find?_insert] at h
  split_ifs at h with hk
  · cases hold : m.find? k with
    | none =>
      rw [hold, Option.getD_none, Option.some.injEq] at h
      exact Or.inr ⟨rfl, hk, h.symm⟩
    | some u =>
      rw [hold, Option.getD_some] at h
      exact Or.inl (hk ▸ hold.trans h)
  · exact Or.inl h

/-- A key has one value, so the image of that value can be stored as well. -/
lemma modify_const {m : OrdMap κ ν} {k : κ} {v : ν} (h : m.find? k = some v) (f : ν → ν) :
    m.modify k f = m.modify k (fun _ => f v) := by
  unfold modify
  rw [OrdMap.mk.injEq]
  refine List.map_congr_left fun a ha => ?_
  obtain ⟨k', w⟩ := a
  by_cases hk : k' = k
  · subst hk
    obtain rfl := Option.some.inj ((find?_eq_some.mpr ha).symm.trans h)
    rfl
  · rw [if_neg hk, if_neg hk]

lemma modify_of_none {m : OrdMap κ ν} {k : κ} (h : m.find? k = none) (f : ν → ν) :
    m.modify k f = m := by
  obtain ⟨l, hl⟩ := m
  unfold modify
  rw [OrdMap.mk.injEq]
  refine List.map_congr_left (fun a ha => if_neg fun hk => ?_) |>.trans (List.map_id l)
  exact find?_eq_none.mp h a.2 (hk ▸ ha)

lemma forall_modify {m : OrdMap κ ν} {P : ν → Prop} {k : κ} {f : ν → ν}
    (h : ∀ k v, m.find? k = some v → P v) (hf : ∀ v, m.find? k = some v → P (f v)) :
    ∀ k' v, (m.modify k f).find? k' = some v → P v := by
  intro k' v hv
  rcases find?_modify_cases hv with ⟨-, hv⟩ | ⟨-, u, hu, rfl⟩
  · exact h k' v hv
  · exact hf u hu

lemma forall_insert {m : OrdMap κ ν} {P : ν → Prop} {k : κ} {w : ν}
    (h : ∀ k v, m.find? k = some v → P v) (hw : P w) :
    ∀ k' v, (m.insert k w).find? k' = some v → P v := by
  intro k' v hv
  rcases find?_insert_cases hv with hv | ⟨-, -, rfl⟩
  · exact h k' v hv
  · exact hw

/-- The scan finds an entry exactly when it is stored, satisfies `p`, and no entry with a
smaller key does. -/
lemma search_eq_some {m : OrdMap κ ν} {p : κ → ν → Bool} {k : κ} {v : ν} :
    m.search p = some (k, v) ↔
      m.find? k = some v ∧ p k v ∧ ∀ k' w, k' < k → m.find? k' = some w → ¬p k' w := by
  simp only [find?_eq_some]
  obtain ⟨l, hl⟩ := m
  simp only [search]
  induction l with
  | nil => simp
  | cons b l ih =>
    obtain ⟨hb, hl'⟩ := List.pairwise_cons.mp hl
    have ih := ih hl'
    rw [List.find?_cons]
    by_cases hp : p b.1 b.2
    · simp only [hp, Option.some.injEq]
      constructor
      · rintro rfl
        refine ⟨List.mem_cons_self, hp, fun k' w hlt hw => ?_⟩
        rcases List.mem_cons.mp hw with h | h
        · exact absurd ((Prod.mk.inj h).1 ▸ hlt) (lt_irrefl _)
        · exact absurd (lt_trans hlt (hb _ h)) (lt_irrefl _)
      · rintro ⟨hm, hpk, hmin⟩
        rcases List.mem_cons.mp hm with h | h
        · exact h.symm
        · exact absurd hp (hmin b.1 b.2 (hb _ h) List.mem_cons_self)
    · simp only [hp, ih, List.mem_cons]
      constructor
      · rintro ⟨hm, hpk, hmin⟩
        refine ⟨Or.inr hm, hpk, fun k' w hlt hw => ?_⟩
        rcases hw with rfl | hw
        · exact hp
        · exact hmin k' w hlt hw
      · rintro ⟨hm, hpk, hmin⟩
        rcases hm with rfl | hm
        · exact absurd hpk hp
        · exact ⟨hm, hpk, fun k' w hlt hw => hmin k' w hlt (Or.inr hw)⟩

lemma search_eq_none {m : OrdMap κ ν} {p : κ → ν → Bool} :
    m.search p = none ↔ ∀ k v, m.find? k = some v → ¬p k v := by
  simp only [find?_eq_some, search, List.find?_eq_none]
  exact ⟨fun h k v hv => h (k, v) hv, fun h a ha => h a.1 a.2 ha⟩

lemma search_all {m : OrdMap κ ν} {p : κ → ν → Bool} {q : ν → Bool} :
    (m.search p).all (fun e => q e.2) ↔
      ∀ k v, m.find? k = some v → p k v → (∀ i u, i < k → m.find? i = some u → ¬p i u) → q v := by
  cases hs : m.search p with
  | none => exact ⟨fun _ k v hv hp => absurd hp (search_eq_none.mp hs k v hv), fun _ => rfl⟩
  | some e =>
    obtain ⟨hfind, hp, hmin⟩ := search_eq_some.mp hs
    rw [Option.all_some]
    refine ⟨fun hq k v hv hpv hfirst => ?_, fun h => h e.1 e.2 hfind hp hmin⟩
    rcases lt_trichotomy k e.1 with hlt | rfl | hlt
    · exact absurd hpv (hmin k v hlt hv)
    · rw [hfind, Option.some.injEq] at hv
      exact hv ▸ hq
    · exact absurd hp (hfirst e.1 e.2 hlt hfind)

lemma search_isSome {m : OrdMap κ ν} {p : κ → ν → Bool} :
    (m.search p).isSome ↔ ∃ k v, m.find? k = some v ∧ p k v := by
  rw [← not_iff_not, Option.not_isSome_iff_eq_none, search_eq_none]
  push Not
  rfl

lemma search_isNone {m : OrdMap κ ν} {p : κ → ν → Bool} :
    (m.search p).isNone ↔ ∀ k v, m.find? k = some v → ¬p k v := by
  rw [Option.isNone_iff_eq_none, search_eq_none]

end OrdMap

end ITCP.Lib
