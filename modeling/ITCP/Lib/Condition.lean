import Mathlib.Data.List.Basic
import Mathlib.Tactic.SplitIfs

/-!
# Condition variables

The threads at a condition variable: those that are blocked, those that have been notified and
those that woke up on their own, the latter two until they have the lock again. A notification
chooses one blocked thread.
-/

namespace ITCP.Lib

/-- The threads at a condition variable, each with what it brings back to its loop. -/
structure Condition (ι : Type*) where
  waiting : List ι
  notified : List ι
  spurious : List ι

namespace Condition

variable {ι : Type*}

def empty : Condition ι := ⟨[], [], []⟩

/-- The lock is released and the thread blocked. -/
def wait (c : Condition ι) (i : ι) : Condition ι := { c with waiting := c.waiting ++ [i] }

/-- `notify_one`: some blocked thread, the `k`-th one, is notified if there is any. -/
def notifyOne (c : Condition ι) (k : ℕ) : Option (Condition ι) :=
  if c.waiting.isEmpty then some c
  else c.waiting[k]?.map (fun i =>
    { c with waiting := c.waiting.eraseIdx k, notified := c.notified ++ [i] })

/-- A blocked thread wakes up without a notification. -/
def wakeup (c : Condition ι) (k : ℕ) : Option (Condition ι) :=
  c.waiting[k]?.map (fun i =>
    { c with waiting := c.waiting.eraseIdx k, spurious := c.spurious ++ [i] })

/-- A notified thread has the lock again. -/
def retake (c : Condition ι) (k : ℕ) : Option (ι × Condition ι) :=
  c.notified[k]?.map (fun i => (i, { c with notified := c.notified.eraseIdx k }))

/-- A thread that woke up on its own has the lock again. -/
def retakeSpurious (c : Condition ι) (k : ℕ) : Option (ι × Condition ι) :=
  c.spurious[k]?.map (fun i => (i, { c with spurious := c.spurious.eraseIdx k }))

def threads (c : Condition ι) : List ι := c.waiting ++ c.notified ++ c.spurious

/-- While a thread is blocked, at least `n` notified ones are on their way. -/
def Served (c : Condition ι) (n : ℕ) : Prop := c.waiting ≠ [] → n ≤ c.notified.length

variable {c d : Condition ι} {n k : ℕ}

lemma served_empty (n : ℕ) : (empty : Condition ι).Served n := fun h => absurd rfl h

lemma served_zero (c : Condition ι) : c.Served 0 := fun _ => Nat.zero_le _

lemma Served.mono {m : ℕ} (h : c.Served n) (hmn : m ≤ n) : c.Served m :=
  fun hw => Nat.le_trans hmn (h hw)

/-- A notification serves one more, and it is only lost when no thread is blocked. -/
lemma Served.notifyOne (h : c.Served n) (hd : c.notifyOne k = some d) : d.Served (n + 1) := by
  intro hw
  unfold Condition.notifyOne at hd
  split_ifs at hd with he
  · rw [Option.some.injEq] at hd
    subst hd
    exact absurd (List.isEmpty_iff.mp he) hw
  · obtain ⟨i, -, rfl⟩ := Option.map_eq_some_iff.mp hd
    have := h (fun h => he (List.isEmpty_iff.mpr h))
    rw [List.length_append, List.length_singleton]
    omega

lemma Served.wakeup (h : c.Served n) (hd : c.wakeup k = some d) : d.Served n := by
  obtain ⟨i, hi, rfl⟩ := Option.map_eq_some_iff.mp hd
  intro _
  refine h (fun hw => ?_)
  rw [hw] at hi
  cases hi

/-- A thread that takes the lock back may leave one fewer to be served. -/
lemma Served.retake {i : ι} (h : c.Served n) (hd : c.retake k = some (i, d)) :
    d.Served (n - 1) := by
  obtain ⟨j, hj, hd⟩ := Option.map_eq_some_iff.mp hd
  obtain ⟨-, rfl⟩ := Prod.mk.inj hd
  intro hw
  have := h hw
  rw [List.length_eraseIdx_of_lt (List.getElem?_eq_some_iff.mp hj).1]
  omega

lemma Served.retakeSpurious {i : ι} (h : c.Served n) (hd : c.retakeSpurious k = some (i, d)) :
    d.Served n := by
  obtain ⟨j, hj, hd⟩ := Option.map_eq_some_iff.mp hd
  obtain ⟨-, rfl⟩ := Prod.mk.inj hd
  exact h

/-- The ways in which a thread gets to the test of its loop with the lock held, and what they leave
at the condition. -/
inductive Enters (c : Condition ι) (i : ι) : Condition ι → Prop
  | call : Enters c i c
  | notified {d : Condition ι} {k : ℕ} (h : c.retake k = some (i, d)) : Enters c i d
  | spurious {d : Condition ι} {k : ℕ} (h : c.retakeSpurious k = some (i, d)) : Enters c i d

lemma Served.enters {i : ι} (h : c.Served n) (hd : c.Enters i d) : d.Served (n - 1) := by
  cases hd with
  | call => exact h.mono (Nat.sub_le n 1)
  | notified hd => exact h.retake hd
  | spurious hd => exact (h.retakeSpurious hd).mono (Nat.sub_le n 1)

end Condition

end ITCP.Lib
