import Mathlib.Tactic
import ITCP.Lib.Ring

/-!
# BlockingQueue

The bounded queue of `utils.h`. `push` and `pop` are the sections that run under `_mutex` once
the wait loop has been left: they are undefined exactly where the loop goes on waiting. The view
of the ring as a list, `contents`, turns both into operations on a FIFO queue.
-/

namespace ITCP
open Lib

structure BlockingQueue (α : Type*) where
  _start : ℤ
  _end : ℤ
  _capacity : ℤ
  _vt : List α

namespace BlockingQueue

variable {α : Type*}

/-- The constructor `BlockingQueue(int capacity)`. -/
def new [Inhabited α] (capacity : ℕ) : BlockingQueue α where
  _start := 0
  _end := 0
  _capacity := capacity
  _vt := List.replicate (capacity + 1) default

def isempty (q : BlockingQueue α) : Bool := q._end == q._start

def isfull (q : BlockingQueue α) : Bool :=
  (q._start + q._capacity - q._end).tmod (q._capacity + 1) == 0

/-- `push` after its wait loop; `none` while the queue is full. -/
def push (q : BlockingQueue α) (e : α) : Option (BlockingQueue α) :=
  if q.isfull then none
  else some { q with
    _vt := q._vt.set q._end.toNat e
    _end := (q._end + 1).tmod (q._capacity + 1) }

/-- Both indices are slots of the ring, and the vector has one slot more than the capacity. -/
structure WF (q : BlockingQueue α) : Prop where
  start_nonneg : 0 ≤ q._start
  start_le : q._start ≤ q._capacity
  end_nonneg : 0 ≤ q._end
  end_le : q._end ≤ q._capacity
  slots : q._vt.length = q._capacity.toNat + 1

section Bounds

variable {q : BlockingQueue α}

lemma WF.start_lt (h : q.WF) : q._start.toNat < q._capacity.toNat + 1 := by
  have := h.start_nonneg
  have := h.start_le
  omega

lemma WF.end_lt (h : q.WF) : q._end.toNat < q._capacity.toNat + 1 := by
  have := h.end_nonneg
  have := h.end_le
  omega

end Bounds

variable [Inhabited α]

/-- `pop` after its wait loop; `none` while the queue is empty. -/
def pop (q : BlockingQueue α) : Option (α × BlockingQueue α) :=
  if q.isempty then none
  else some (q._vt[q._start.toNat]!,
    { q with _start := (q._start + 1).tmod (q._capacity + 1) })

/-- The stored values in the order in which they will be popped. -/
def contents (q : BlockingQueue α) : List α :=
  ringList (fun i => q._vt[i]!) (q._capacity.toNat + 1) q._start.toNat
    (ringSize (q._capacity.toNat + 1) q._start.toNat q._end.toNat)

lemma wf_new (capacity : ℕ) : (new capacity : BlockingQueue α).WF := by
  constructor <;> simp [new]

lemma contents_new (capacity : ℕ) : (new capacity : BlockingQueue α).contents = [] := rfl

variable {q r : BlockingQueue α} {e : α}

lemma contents_length (q : BlockingQueue α) :
    q.contents.length = ringSize (q._capacity.toNat + 1) q._start.toNat q._end.toNat :=
  ringList_length _ _ _ _

lemma WF.length_contents_le (h : q.WF) : q.contents.length ≤ q._capacity.toNat := by
  have := ringSize_lt h.start_lt h.end_lt
  rw [contents_length]
  omega

lemma WF.isempty_iff (h : q.WF) : q.isempty ↔ q.contents = [] := by
  rw [← List.length_eq_zero_iff, contents_length, ringSize_eq_zero h.start_lt]
  have := h.start_nonneg
  have := h.end_nonneg
  simp only [isempty, beq_iff_eq]
  omega

lemma WF.isfull_iff (h : q.WF) : q.isfull ↔ q.contents.length = q._capacity.toNat := by
  have := h.start_nonneg
  have := h.start_le
  have := h.end_nonneg
  have := h.end_le
  rw [contents_length]
  simp only [isfull, beq_iff_eq]
  rw [Int.tmod_eq_emod_of_nonneg (by omega)]
  -- the dividend lies between `0` and twice the capacity, so it is `0` or the number of slots
  have hdiv : (q._start + q._capacity - q._end) % (q._capacity + 1) = 0 ↔
      q._start + q._capacity - q._end = 0 ∨
        q._start + q._capacity - q._end = q._capacity + 1 := by
    constructor
    · intro hz
      by_cases hlt : q._start + q._capacity - q._end < q._capacity + 1
      · rw [Int.emod_eq_of_lt (by omega) hlt] at hz
        exact Or.inl hz
      · rw [← Int.sub_emod_right, Int.emod_eq_of_lt (by omega) (by omega)] at hz
        exact Or.inr (by omega)
    · rintro (hz | hz) <;> simp [hz]
  rw [hdiv]
  unfold ringSize
  split_ifs <;> omega

lemma tmod_succ_toNat {x c : ℤ} (hx : 0 ≤ x) (hc : x ≤ c) :
    ((x + 1).tmod (c + 1)).toNat = (x.toNat + 1) % (c.toNat + 1) := by
  rw [Int.tmod_eq_emod_of_nonneg (by omega), Int.toNat_emod (by omega) (by omega)]
  congr 1 <;> omega

lemma tmod_succ_mem {x c : ℤ} (hx : 0 ≤ x) (hc : x ≤ c) :
    0 ≤ (x + 1).tmod (c + 1) ∧ (x + 1).tmod (c + 1) ≤ c := by
  rw [Int.tmod_eq_emod_of_nonneg (by omega)]
  have := Int.emod_nonneg (x + 1) (show c + 1 ≠ 0 by omega)
  have := Int.emod_lt_of_pos (x + 1) (show 0 < c + 1 by omega)
  omega

/-- What a push does: it needs a free place, keeps the capacity and appends the value. -/
theorem push_spec (h : q.WF) (hp : q.push e = some r) :
    q.contents.length < q._capacity.toNat ∧ r.WF ∧ r._capacity = q._capacity ∧
      r.contents = q.contents ++ [e] := by
  unfold push at hp
  split at hp
  · cases hp
  rename_i hfull
  rw [Option.some.injEq] at hp
  subst hp
  have hlt : q.contents.length < q._capacity.toNat :=
    lt_of_le_of_ne h.length_contents_le (fun he => hfull (h.isfull_iff.mpr he))
  have hend := tmod_succ_mem h.end_nonneg h.end_le
  refine ⟨hlt, ⟨h.start_nonneg, h.start_le, hend.1, hend.2, ?_⟩, rfl, ?_⟩
  · rw [List.length_set]
    exact h.slots
  · rw [contents_length] at hlt
    have hcells : (fun i => (q._vt.set q._end.toNat e)[i]!) =
        Function.update (fun i => q._vt[i]!) ((q._start.toNat +
          ringSize (q._capacity.toNat + 1) q._start.toNat q._end.toNat) %
            (q._capacity.toNat + 1)) e := by
      rw [add_ringSize_mod h.start_lt h.end_lt]
      funext i
      by_cases hi : i = q._end.toNat
      · have := h.end_lt
        simp [hi, h.slots, this]
      · rw [Function.update_of_ne hi]
        simp [List.getElem?_set_ne (Ne.symm hi)]
    simp only [contents]
    rw [hcells, tmod_succ_toNat h.end_nonneg h.end_le,
      ringSize_push h.start_lt h.end_lt (by omega), ringList_push _ _ h.start_lt (by omega)]

/-- What a pop does: it returns the first value and leaves the others. -/
theorem pop_spec (h : q.WF) (hp : q.pop = some (e, r)) :
    r.WF ∧ r._capacity = q._capacity ∧ q.contents = e :: r.contents := by
  unfold pop at hp
  split at hp
  · cases hp
  rename_i hempty
  rw [Option.some.injEq, Prod.mk.injEq] at hp
  obtain ⟨rfl, rfl⟩ := hp
  have hstart := tmod_succ_mem h.start_nonneg h.start_le
  refine ⟨⟨hstart.1, hstart.2, h.end_nonneg, h.end_le, h.slots⟩, rfl, ?_⟩
  have hne : q._end.toNat ≠ q._start.toNat := by
    have := h.start_nonneg
    have := h.end_nonneg
    simp only [isempty, beq_iff_eq] at hempty
    omega
  simp only [contents]
  rw [← ringSize_pop h.start_lt h.end_lt hne, ringList_pop _ _ h.start_lt,
    tmod_succ_toNat h.start_nonneg h.start_le]

lemma push_eq_none (h : q.WF) : q.push e = none ↔ q.contents.length = q._capacity.toNat := by
  rw [← h.isfull_iff]
  unfold push
  split <;> simp_all

lemma pop_eq_none (h : q.WF) : q.pop = none ↔ q.contents = [] := by
  rw [← h.isempty_iff]
  unfold pop
  split <;> simp_all

end BlockingQueue

end ITCP
