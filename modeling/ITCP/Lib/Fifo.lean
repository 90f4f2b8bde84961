import Mathlib.Data.List.Basic
import ITCP.Lib.Run

/-!
# Bounded FIFO queues

The specification of a bounded queue: a list of at most `capacity` values, with everything that has
been pushed to it and popped from it.
-/

namespace ITCP.Lib

structure Fifo (α : Type*) where
  capacity : ℕ
  items : List α
  pushed : List α
  popped : List α

inductive FifoEvent (α : Type*)
  | push (e : α)
  | pop

namespace Fifo

variable {α : Type*}

def new (capacity : ℕ) : Fifo α := ⟨capacity, [], [], []⟩

def step (q : Fifo α) : FifoEvent α → Option (Fifo α)
  | .push e =>
    if q.items.length < q.capacity then
      some { q with items := q.items ++ [e], pushed := q.pushed ++ [e] }
    else none
  | .pop =>
    match q.items with
    | [] => none
    | e :: items => some { q with items := items, popped := q.popped ++ [e] }

/-- The queue keeps within its bound, and holds what has been pushed and not yet popped. -/
structure Lawful (q : Fifo α) : Prop where
  bounded : q.items.length ≤ q.capacity
  history : q.popped ++ q.items = q.pushed

lemma lawful_new (capacity : ℕ) : (new capacity : Fifo α).Lawful := ⟨Nat.zero_le _, rfl⟩

lemma Lawful.step {q r : Fifo α} {e : FifoEvent α} (h : q.Lawful) (hr : q.step e = some r) :
    r.Lawful := by
  cases e with
  | push e =>
    simp only [Fifo.step] at hr
    split_ifs at hr with hlt
    obtain rfl := Option.some.inj hr
    refine ⟨?_, ?_⟩
    · rw [List.length_append, List.length_singleton]
      exact hlt
    · rw [← h.history, List.append_assoc]
  | pop =>
    simp only [Fifo.step] at hr
    split at hr
    · cases hr
    rename_i e items hitems
    obtain rfl := Option.some.inj hr
    refine ⟨?_, ?_⟩
    · have := h.bounded
      rw [hitems, List.length_cons] at this
      exact Nat.le_of_succ_le this
    · rw [← h.history, hitems, List.append_assoc]
      rfl

/-- Every run of a bounded queue loses, doubles and reorders nothing. -/
theorem lawful_of_run {q r : Fifo α} {es : List (FifoEvent α)} (hq : q.Lawful)
    (h : run step q es = some r) : r.Lawful :=
  run_invariant (I := Lawful) (fun _ _ _ hq hr => hq.step hr) hq h

lemma Lawful.popped_prefix {q : Fifo α} (h : q.Lawful) : q.popped <+: q.pushed :=
  ⟨q.items, h.history⟩

end Fifo

end ITCP.Lib
