import ITCP.Lib.OrdMap

/-!
# Shadowed entries

A scan for a tag finds the first entry that has it. Where entries are live or dead, a dead entry in
front shadows the live ones that have the same tag. What keeps a map free of this when one of its
entries is replaced can be read off the entries in front of it and behind it.
-/

namespace ITCP.Lib.OrdMap

variable {κ ν α : Type*} [LinearOrder κ]

/-- When some entry with a tag is live, then so is the first one that has it. -/
def Unshadowed (tag : ν → α) (live : ν → Bool) (m : OrdMap κ ν) : Prop :=
  ∀ k v k' w, m.find? k = some v → live v → m.find? k' = some w → tag w = tag v →
    (∀ i u, i < k' → m.find? i = some u → tag u ≠ tag v) → live w

variable {tag : ν → α} {live : ν → Bool} {m : OrdMap κ ν} {k : κ} {v : ν}

/-- Only the tags matter, and which entries are live. -/
lemma Unshadowed.congr {m' : OrdMap κ ν} (h : Unshadowed tag live m)
    (hentries : ∀ k w, m'.find? k = some w →
      ∃ v, m.find? k = some v ∧ tag w = tag v ∧ live w = live v)
    (hkeys : ∀ k v, m.find? k = some v → ∃ w, m'.find? k = some w ∧ tag w = tag v) :
    Unshadowed tag live m' := by
  intro k₁ w₁ k₂ w₂ h₁ hlive h₂ htag hfirst
  obtain ⟨v₁, hv₁, htag₁, hlive₁⟩ := hentries k₁ w₁ h₁
  obtain ⟨v₂, hv₂, htag₂, hlive₂⟩ := hentries k₂ w₂ h₂
  rw [hlive₂]
  refine h k₁ v₁ k₂ v₂ hv₁ (hlive₁ ▸ hlive) hv₂ (by rw [← htag₁, ← htag₂, htag]) fun i u hi hu => ?_
  obtain ⟨u', hu', htag'⟩ := hkeys i u hu
  rw [← htag₁, ← htag']
  exact hfirst i u' hi hu'

lemma Unshadowed.of_find? {m' : OrdMap κ ν} (h : Unshadowed tag live m)
    (hfind : ∀ k, m'.find? k = m.find? k) : Unshadowed tag live m' :=
  h.congr (fun k w hw => ⟨w, hfind k ▸ hw, rfl, rfl⟩) (fun k v hv => ⟨v, (hfind k).trans hv, rfl⟩)

lemma Unshadowed.modify_alike {f : ν → ν} (h : Unshadowed tag live m)
    (hf : ∀ v, m.find? k = some v → tag (f v) = tag v ∧ live (f v) = live v) :
    Unshadowed tag live (m.modify k f) := by
  refine h.congr (fun k' w hw => ?_) (fun k' v hv => ?_)
  · rw [find?_modify] at hw
    split_ifs at hw with hk
    · obtain ⟨v, hv, rfl⟩ := Option.map_eq_some_iff.mp hw
      exact ⟨v, hk ▸ hv, hf v hv⟩
    · exact ⟨w, hw, rfl, rfl⟩
  · rw [find?_modify]
    split_ifs with hk
    · subst hk
      exact ⟨f v, by rw [hv, Option.map_some], (hf v hv).1⟩
    · exact ⟨v, hv, rfl⟩

/-- A dead entry behind all others shadows none. -/
lemma Unshadowed.insert_last (h : Unshadowed tag live m) (hnone : m.find? k = none)
    (hlast : ∀ k' u, m.find? k' = some u → k' < k) (hdead : ¬live v) :
    Unshadowed tag live (m.insert k v) := by
  have hfind : ∀ k' w, (m.insert k v).find? k' = some w → k' = k ∧ w = v ∨ m.find? k' = some w := by
    intro k' w hw
    rw [find?_insert, hnone, Option.getD_none] at hw
    split_ifs at hw with hk
    · exact Or.inl ⟨hk, (Option.some.inj hw).symm⟩
    · exact Or.inr hw
  have hold : ∀ k' w, m.find? k' = some w → (m.insert k v).find? k' = some w := fun k' w hw => by
    rw [find?_insert_of_ne _ _ (hlast k' w hw).ne, hw]
  intro k₁ v₁ k₂ v₂ h₁ hlive h₂ htag hfirst
  rcases hfind k₁ v₁ h₁ with ⟨-, rfl⟩ | hv₁
  · exact absurd hlive hdead
  rcases hfind k₂ v₂ h₂ with ⟨rfl, -⟩ | hv₂
  · exact absurd rfl (hfirst k₁ v₁ (hlast k₁ v₁ hv₁) h₁)
  · exact h k₁ v₁ k₂ v₂ hv₁ hlive hv₂ htag fun i u hi hu => hfirst i u hi (hold i u hu)

/-! ### Which replacements are admitted -/

section conditions

variable [DecidableEq α] (tag live)

/-- The first entry with the tag in front of `k`, if there is one, is live. -/
def ledBefore (m : OrdMap κ ν) (k : κ) (a : α) : Bool :=
  (m.search (fun i u => decide (i < k) && tag u == a)).all (fun e => live e.2)

/-- Some entry in front of `k` has the tag, or no live one behind it does. -/
def spared (m : OrdMap κ ν) (k : κ) (a : α) : Bool :=
  (m.search (fun i u => decide (i < k) && tag u == a)).isSome ||
    (m.search (fun i u => decide (k < i) && (tag u == a && live u))).isNone

/-- The first entry other than that of `k` with the tag is live, or no other one is. -/
def ledWithout (m : OrdMap κ ν) (k : κ) (a : α) : Bool :=
  (m.search (fun i u => decide (i ≠ k) && tag u == a)).all (fun e => live e.2) ||
    (m.search (fun i u => decide (i ≠ k) && (tag u == a && live u))).isNone

/-- The entry of `k` may be replaced by one with the tag `a` that is live or dead. -/
def admits (m : OrdMap κ ν) (k : κ) (a : α) (b : Bool) : Bool :=
  (m.find? k).all (fun v => tag v == a || ledWithout tag live m k (tag v)) &&
    if b then ledBefore tag live m k a else spared tag live m k a

end conditions

variable [DecidableEq α] {a : α}

lemma ledBefore_iff : ledBefore tag live m k a ↔ ∀ k' w, k' < k → m.find? k' = some w → tag w = a →
    (∀ i u, i < k' → m.find? i = some u → tag u ≠ a) → live w := by
  simp only [ledBefore, search_all, Bool.and_eq_true, decide_eq_true_eq, beq_iff_eq, not_and]
  constructor
  · exact fun h k' w hlt hw htag hfirst => h k' w hw ⟨hlt, htag⟩ (fun i u hi hu _ => hfirst i u hi hu)
  · exact fun h k' w hw hp hfirst =>
      h k' w hp.1 hw hp.2 (fun i u hi hu => hfirst i u hi hu (hi.trans hp.1))

lemma spared_iff : spared tag live m k a ↔ (∃ k' w, k' < k ∧ m.find? k' = some w ∧ tag w = a) ∨
    ∀ k' w, k < k' → m.find? k' = some w → tag w = a → ¬live w := by
  simp only [spared, Bool.or_eq_true, search_isSome, search_isNone, Bool.and_eq_true,
    decide_eq_true_eq, beq_iff_eq, not_and]
  refine or_congr ⟨?_, ?_⟩ ⟨?_, ?_⟩
  · exact fun ⟨k', w, hw, hlt, htag⟩ => ⟨k', w, hlt, hw, htag⟩
  · exact fun ⟨k', w, hlt, hw, htag⟩ => ⟨k', w, hw, hlt, htag⟩
  · exact fun h k' w hlt hw => h k' w hw hlt
  · exact fun h k' w hw hlt => h k' w hlt hw

lemma ledWithout_iff : ledWithout tag live m k a ↔
    (∀ k' w, k' ≠ k → m.find? k' = some w → tag w = a →
      (∀ i u, i < k' → i ≠ k → m.find? i = some u → tag u ≠ a) → live w) ∨
    ∀ k' w, k' ≠ k → m.find? k' = some w → tag w = a → ¬live w := by
  simp only [ledWithout, Bool.or_eq_true, search_all, search_isNone, Bool.and_eq_true,
    decide_eq_true_eq, beq_iff_eq, not_and]
  refine or_congr ⟨?_, ?_⟩ ⟨?_, ?_⟩
  · exact fun h k' w hne hw htag hfirst =>
      h k' w hw ⟨hne, htag⟩ (fun i u hi hu hni => hfirst i u hi hni hu)
  · exact fun h k' w hw hp hfirst =>
      h k' w hp.1 hw hp.2 (fun i u hi hni hu => hfirst i u hi hu hni)
  · exact fun h k' w hne hw => h k' w hw hne
  · exact fun h k' w hw hne => h k' w hne hw

lemma exists_first (hv : m.find? k = some v) (htag : tag v = a) : ∃ k' w, m.find? k' = some w ∧
    tag w = a ∧ ∀ i u, i < k' → m.find? i = some u → tag u ≠ a := by
  have hsome : (m.search (fun _ u => tag u == a)).isSome :=
    search_isSome.mpr ⟨k, v, hv, beq_iff_eq.mpr htag⟩
  obtain ⟨e, he⟩ := Option.isSome_iff_exists.mp hsome
  obtain ⟨hfind, hp, hmin⟩ := search_eq_some.mp he
  simp only [beq_iff_eq] at hp hmin
  exact ⟨e.1, e.2, hfind, hp, hmin⟩

section replace

variable {f : ν → ν}

/-- What the scan finds once the entry of `k` has been replaced. -/
lemma find?_replace (hv : m.find? k = some v) {k' : κ} {w : ν} :
    (m.modify k f).find? k' = some w ↔ k' = k ∧ w = f v ∨ k' ≠ k ∧ m.find? k' = some w := by
  rw [find?_modify]
  split_ifs with h
  · rw [hv, Option.map_some, Option.some.injEq]
    simp [h, eq_comm]
  · simp [h]

lemma unshadowed_replace (h : Unshadowed tag live m) (hv : m.find? k = some v)
    (hold : tag v = tag (f v) ∨ ledWithout tag live m k (tag v))
    (hnew : (if live (f v) then ledBefore tag live m k (tag (f v))
      else spared tag live m k (tag (f v))) = true) : Unshadowed tag live (m.modify k f) := by
  intro k₁ v₁ k₂ v₂ h₁ hlive h₂ htag hfirst
  simp only [find?_replace hv] at h₁ h₂ hfirst
  rcases h₂ with ⟨rfl, rfl⟩ | ⟨hne₂, h₂⟩
  -- the new entry comes first
  · by_contra hdead
    rw [if_neg hdead, spared_iff] at hnew
    rcases h₁ with ⟨-, rfl⟩ | ⟨hne₁, h₁⟩
    · exact hdead hlive
    rcases hnew with ⟨i, u, hi, hu, hutag⟩ | hnew
    · exact hfirst i u hi (Or.inr ⟨hi.ne, hu⟩) (hutag.trans htag)
    · rcases lt_or_gt_of_ne hne₁ with hlt | hlt
      · exact hfirst k₁ v₁ hlt (Or.inr ⟨hne₁, h₁⟩) rfl
      · exact hnew k₁ v₁ hlt h₁ htag.symm hlive
  · have hfirst' : ∀ i u, i < k₂ → i ≠ k → m.find? i = some u → tag u ≠ tag v₁ :=
      fun i u hi hne hu => hfirst i u hi (Or.inr ⟨hne, hu⟩)
    rcases h₁ with ⟨rfl, rfl⟩ | ⟨hne₁, h₁⟩
    -- the new entry is live and stands behind
    · have hlt : k₂ < k₁ := lt_of_le_of_ne
        (not_lt.mp fun hlt => hfirst k₁ (f v) hlt (Or.inl ⟨rfl, rfl⟩) rfl) hne₂
      rw [if_pos hlive, ledBefore_iff] at hnew
      exact hnew k₂ v₂ hlt h₂ htag fun i u hi hu => hfirst' i u hi (hi.trans hlt).ne hu
    · by_cases hbefore : ∀ u, m.find? k = some u → k < k₂ → tag u ≠ tag v₁
      -- the first entry was the first one before
      · refine h k₁ v₁ k₂ v₂ h₁ hlive h₂ htag fun i u hi hu => ?_
        by_cases hik : i = k
        · exact hbefore u (hik ▸ hu) (hik ▸ hi)
        · exact hfirst' i u hi hik hu
      -- the old entry had the tag and came before it
      · push Not at hbefore
        obtain ⟨u, hu, hlt, hutag⟩ := hbefore
        obtain rfl := Option.some.inj (hv.symm.trans hu)
        rcases hold with hold | hold
        · exact absurd (hold.symm.trans hutag) (hfirst k (f v) hlt (Or.inl ⟨rfl, rfl⟩))
        · rw [ledWithout_iff, hutag] at hold
          rcases hold with hold | hold
          · exact hold k₂ v₂ hne₂ h₂ htag hfirst'
          · exact absurd hlive (hold k₁ v₁ hne₁ h₁ rfl)

/-- What must have held of the old entry and of the new one. -/
lemma Unshadowed.of_replace (h : Unshadowed tag live (m.modify k f)) (hv : m.find? k = some v) :
    (tag v = tag (f v) ∨ ledWithout tag live m k (tag v)) ∧
      (if live (f v) then ledBefore tag live m k (tag (f v))
      else spared tag live m k (tag (f v))) = true := by
  constructor
  · rw [or_iff_not_imp_left, ledWithout_iff, or_iff_not_imp_right]
    intro hne hother k' w hne' hw htag hfirst
    push Not at hother
    obtain ⟨k₁, v₁, hne₁, h₁, htag₁, hlive⟩ := hother
    refine h k₁ v₁ k' w ((find?_replace hv).mpr (Or.inr ⟨hne₁, h₁⟩)) hlive
      ((find?_replace hv).mpr (Or.inr ⟨hne', hw⟩)) (htag.trans htag₁.symm) fun i u hi hu => ?_
    rw [htag₁]
    rcases (find?_replace hv).mp hu with ⟨-, rfl⟩ | ⟨hik, hu⟩
    · exact Ne.symm hne
    · exact hfirst i u hi hik hu
  · have hk : (m.modify k f).find? k = some (f v) := (find?_replace hv).mpr (Or.inl ⟨rfl, rfl⟩)
    split_ifs with hlive
    · rw [ledBefore_iff]
      intro k' w hlt hw htag hfirst
      refine h k (f v) k' w hk hlive ((find?_replace hv).mpr (Or.inr ⟨hlt.ne, hw⟩)) htag
        fun i u hi hu => ?_
      rcases (find?_replace hv).mp hu with ⟨rfl, -⟩ | ⟨-, hu⟩
      · exact absurd hi hlt.not_gt
      · exact hfirst i u hi hu
    · rw [spared_iff, or_iff_not_imp_right]
      intro hother
      push Not at hother
      obtain ⟨k₁, v₁, hlt₁, h₁, htag₁, hlive₁⟩ := hother
      have h₁' := (find?_replace (f := f) hv).mpr (Or.inr ⟨hlt₁.ne', h₁⟩)
      obtain ⟨k₂, v₂, h₂, htag₂, hfirst⟩ := exists_first hk (rfl : tag (f v) = tag (f v))
      have hlive₂ := h k₁ v₁ k₂ v₂ h₁' hlive₁ h₂ (htag₂.trans htag₁.symm)
        (fun i u hi hu => htag₁ ▸ hfirst i u hi hu)
      rcases (find?_replace hv).mp h₂ with ⟨-, rfl⟩ | ⟨hne₂, h₂⟩
      · exact absurd hlive₂ hlive
      · refine ⟨k₂, v₂, lt_of_le_of_ne (not_lt.mp fun hlt => ?_) hne₂, h₂, htag₂⟩
        exact hfirst k (f v) hlt hk rfl

/-- The replacement of an entry leaves nothing shadowed exactly when the entries in front of it and
behind it admit it. -/
theorem unshadowed_modify_iff (h : Unshadowed tag live m) (hv : m.find? k = some v) :
    Unshadowed tag live (m.modify k f) ↔ admits tag live m k (tag (f v)) (live (f v)) := by
  unfold admits
  rw [hv, Option.all_some, Bool.and_eq_true, Bool.or_eq_true, beq_iff_eq]
  exact ⟨fun h' => h'.of_replace hv, fun ⟨hold, hnew⟩ => unshadowed_replace h hv hold hnew⟩

end replace

lemma Unshadowed.modify_last {f : ν → ν} (h : Unshadowed tag live m)
    (hlast : ∀ k' u, m.find? k' = some u → k' ≤ k)
    (hf : ∀ v, m.find? k = some v → tag (f v) = tag v ∧ ¬live (f v)) :
    Unshadowed tag live (m.modify k f) := by
  cases hv : m.find? k with
  | none => exact h.modify_alike fun v hv' => absurd (hv.symm.trans hv') nofun
  | some v =>
    obtain ⟨htag, hdead⟩ := hf v hv
    refine unshadowed_replace h hv (Or.inl htag.symm) ?_
    rw [if_neg hdead, spared_iff]
    exact Or.inr fun k' w hlt hw => absurd (hlast k' w hw) hlt.not_ge

end ITCP.Lib.OrdMap
