import Mathlib.Data.List.Perm.Basic
import Mathlib.Tactic.SplitIfs

/-!
# Lists without one of their entries

A list from which the entry at an index has been removed holds the other entries, each as often as
before and in the same order.
-/

namespace ITCP.Lib

variable {α : Type*} {l : List α} {k : ℕ} {a b : α} {p : α → Bool}

lemma cons_eraseIdx_perm (h : l[k]? = some a) : (a :: l.eraseIdx k).Perm l := by
  obtain ⟨hk, rfl⟩ := List.getElem?_eq_some_iff.mp h
  exact List.getElem_cons_eraseIdx_perm hk

lemma mem_eraseIdx_or (h : l[k]? = some a) (hb : b ∈ l) : b = a ∨ b ∈ l.eraseIdx k :=
  List.mem_cons.mp ((cons_eraseIdx_perm h).mem_iff.mpr hb)

lemma count_eraseIdx [DecidableEq α] (h : l[k]? = some a) (b : α) :
    (l.eraseIdx k).count b + (if a = b then 1 else 0) = l.count b := by
  rw [← (cons_eraseIdx_perm h).count_eq, List.count_cons]
  exact congrArg _ (if_congr beq_iff_eq.symm rfl rfl)

lemma filter_eraseIdx_perm (h : l[k]? = some a) (p : α → Bool) :
    ((a :: l.eraseIdx k).filter p).Perm (l.filter p) := (cons_eraseIdx_perm h).filter p

/-- An entry that a filter leaves out is not missed behind it. -/
lemma filter_eraseIdx_of_neg (h : l[k]? = some a) (ha : p a = false) :
    (l.eraseIdx k).filter p = l.filter p := by
  obtain ⟨hk, rfl⟩ := List.getElem?_eq_some_iff.mp h
  have hsplit : l.take k ++ l[k] :: l.drop (k + 1) = l := by
    rw [← List.drop_eq_getElem_cons hk, List.take_append_drop]
  rw [List.eraseIdx_eq_take_drop_succ, List.filter_append]
  nth_rewrite 3 [← hsplit]
  rw [List.filter_append, List.filter_cons_of_neg (by rw [ha]; exact Bool.false_ne_true)]

end ITCP.Lib
