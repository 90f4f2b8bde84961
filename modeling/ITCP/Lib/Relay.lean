import Mathlib.Data.List.Nodup

/-!
# Queues one behind the other

Places that hold lists of values, and a way that leads through some of them, entered at its first
place and left at its last. What the places hold, read from the end of the way to its start, is one
queue: a value that moves on from one place to the next stays where it is in it.
-/

namespace ITCP.Lib
open scoped List

variable {P β : Type*}

/-- What is held along the way, from its end to its start. -/
def along (held : P → List β) : List P → List β
  | [] => []
  | p :: way => along held way ++ held p

variable {held held' : P → List β} {way pre : List P} {p q : P} {b : β}

lemma along_append (held : P → List β) (pre way : List P) :
    along held (pre ++ way) = along held way ++ along held pre := by
  induction pre with
  | nil => rw [List.nil_append, along, List.append_nil]
  | cons p pre ih => rw [List.cons_append, along, ih, along, List.append_assoc]

lemma along_congr (h : ∀ p ∈ way, held' p = held p) : along held' way = along held way := by
  induction way with
  | nil => rfl
  | cons p way ih =>
    rw [along, along, ih fun q hq => h q (List.mem_cons_of_mem _ hq), h p List.mem_cons_self]

lemma along_eq_nil : along held way = [] ↔ ∀ p ∈ way, held p = [] := by
  induction way with
  | nil => exact iff_of_true rfl fun _ h => absurd h List.not_mem_nil
  | cons p way ih =>
    rw [along, List.append_eq_nil_iff, ih, List.forall_mem_cons]
    exact and_comm

/-- A value enters the way. -/
lemma along_enter (hnodup : (p :: way).Nodup) (henter : held' p = held p ++ [b])
    (hrest : ∀ q, q ≠ p → held' q = held q) :
    along held' (p :: way) = along held (p :: way) ++ [b] := by
  have hway : along held' way = along held way := along_congr fun q hq =>
    hrest q fun h => (List.nodup_cons.mp hnodup).1 (h ▸ hq)
  rw [along, along, hway, henter, List.append_assoc]

/-- A value leaves the way. -/
lemma along_leave (hnodup : (pre ++ [p]).Nodup) (hleave : held p = b :: held' p)
    (hrest : ∀ q, q ≠ p → held' q = held q) :
    along held (pre ++ [p]) = b :: along held' (pre ++ [p]) := by
  have hpre : along held' pre = along held pre := along_congr fun q hq => hrest q fun h =>
    (List.disjoint_of_nodup_append hnodup) hq (List.mem_singleton.mpr h)
  rw [along_append, along_append, hpre]
  simp only [along, List.nil_append, hleave, List.cons_append]

/-- Values get lost at one of the places. -/
lemma along_lose (hnodup : way.Nodup) (hp : p ∈ way) (hlose : List.Sublist (held' p) (held p))
    {lost : List β} (hlost : List.Perm (held' p ++ lost) (held p))
    (hrest : ∀ q, q ≠ p → held' q = held q) :
    List.Sublist (along held' way) (along held way) ∧
      List.Perm (along held' way ++ lost) (along held way) := by
  obtain ⟨pre, post, rfl⟩ := List.append_of_mem hp
  obtain ⟨-, hrear, hdisj⟩ := List.nodup_append.mp hnodup
  have hpre : along held' pre = along held pre := along_congr fun q hq => hrest q
    fun h => hdisj q hq p List.mem_cons_self h
  have hpost : along held' post = along held post := along_congr fun q hq => hrest q
    fun h => (List.nodup_cons.mp hrear).1 (h ▸ hq)
  rw [along_append, along_append, along, along, hpre, hpost]
  refine ⟨(hlose.append_left _).append_right _, ?_⟩
  calc along held post ++ held' p ++ along held pre ++ lost
    _ = along held post ++ held' p ++ (along held pre ++ lost) := List.append_assoc _ _ _
    _ ~ along held post ++ held' p ++ (lost ++ along held pre) := List.perm_append_comm.append_left _
    _ = along held post ++ (held' p ++ lost) ++ along held pre := by simp only [List.append_assoc]
    _ ~ along held post ++ held p ++ along held pre := (hlost.append_left _).append_right _

/-- A value moves on to the next place. -/
lemma along_relay (hnodup : (pre ++ p :: q :: way).Nodup) (hleave : held p = b :: held' p)
    (henter : held' q = held q ++ [b]) (hrest : ∀ r, r ≠ p → r ≠ q → held' r = held r) :
    along held' (pre ++ p :: q :: way) = along held (pre ++ p :: q :: way) := by
  obtain ⟨-, hrear, hdisj⟩ := List.nodup_append.mp hnodup
  obtain ⟨hp, hrear⟩ := List.nodup_cons.mp hrear
  have hq := (List.nodup_cons.mp hrear).1
  have hpre : along held' pre = along held pre := along_congr fun r hr => hrest r
    (fun h => hdisj r hr p List.mem_cons_self h)
    fun h => hdisj r hr q (List.mem_cons_of_mem _ List.mem_cons_self) h
  have hway : along held' way = along held way := along_congr fun r hr => hrest r
    (fun h => hp (List.mem_cons_of_mem _ (h ▸ hr))) fun h => hq (h ▸ hr)
  rw [along_append, along_append, hpre]
  simp only [along, hway, henter, hleave, List.append_assoc, List.singleton_append]

end ITCP.Lib
