import Mathlib.Tactic

/-!
# Last writes

What a store holds after a history of operations, each of which writes to one key at most: under
every key the value of the last write to it.
-/

namespace ITCP.Lib

variable {ω κ ν σ : Type*} [DecidableEq κ] {w : ω → Option (κ × ν)} {os : List ω} {o : ω} {k : κ}

/-- The value of the last operation that writes to the key; `w` says where and what an operation
writes. -/
def lastWrite (w : ω → Option (κ × ν)) (os : List ω) (k : κ) : Option ν :=
  ((os.filterMap w).filter (fun a => a.1 = k)).getLast?.map Prod.snd

lemma lastWrite_concat_of_none (h : w o = none) : lastWrite w (os ++ [o]) k = lastWrite w os k := by
  unfold lastWrite
  rw [List.filterMap_append, List.filterMap_cons_none h, List.filterMap_nil, List.append_nil]

lemma lastWrite_concat_of_some {k' : κ} {v : ν} (h : w o = some (k', v)) :
    lastWrite w (os ++ [o]) k = if k = k' then some v else lastWrite w os k := by
  unfold lastWrite
  rw [List.filterMap_append, List.filterMap_cons_some h, List.filterMap_nil, List.filter_append]
  by_cases hk : k = k'
  · rw [if_pos hk, List.filter_cons_of_pos (by simpa using hk.symm), List.filter_nil,
      List.getLast?_concat, Option.map_some]
  · rw [if_neg hk, List.filter_cons_of_neg (by simpa using Ne.symm hk), List.filter_nil,
      List.append_nil]

/-- A store that starts empty holds the last writes, if each operation does to what is read what its
write says, where an invariant of the store may be used. -/
theorem read_foldl_eq_lastWrite (I : σ → Prop) {step : σ → ω → σ} (read : σ → κ → Option ν)
    (hstep : ∀ s o, I s → I (step s o))
    (hnone : ∀ s o, I s → w o = none → ∀ k, read (step s o) k = read s k)
    (hsome : ∀ s o k' v, I s → w o = some (k', v) →
      ∀ k, read (step s o) k = if k = k' then some v else read s k)
    {s : σ} (hs : I s) (hempty : ∀ k, read s k = none) (os : List ω) :
    I (os.foldl step s) ∧ ∀ k, read (os.foldl step s) k = lastWrite w os k := by
  induction os using List.reverseRecOn with
  | nil => exact ⟨hs, hempty⟩
  | append_singleton os o ih =>
    obtain ⟨hI, hread⟩ := ih
    rw [List.foldl_append, List.foldl_cons, List.foldl_nil]
    refine ⟨hstep _ o hI, fun k => ?_⟩
    cases hw : w o with
    | none => rw [hnone _ o hI hw, hread, lastWrite_concat_of_none hw]
    | some a =>
      obtain ⟨k', v⟩ := a
      rw [hsome _ o k' v hI hw, hread, lastWrite_concat_of_some hw]

end ITCP.Lib
