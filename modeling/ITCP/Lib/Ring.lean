import Mathlib.Order.Basic
import Mathlib.Data.List.Basic
import Mathlib.Tactic.SplitIfs

/-!
# Rings of slots

The `k` values stored in a ring of `n` slots from slot `s` on, read in order. A value written to
the slot behind them is appended, and moving `s` by one slot drops the first value.
-/

namespace ITCP.Lib

variable {α : Type*}

/-- The `k` values stored from slot `s` on in a ring of `n` slots. -/
def ringList (cells : ℕ → α) (n s k : ℕ) : List α :=
  (List.range k).map (fun i => cells ((s + i) % n))

/-- The number of slots from `s` up to `e`. -/
def ringSize (n s e : ℕ) : ℕ := if s ≤ e then e - s else e + n - s

@[simp] lemma ringList_length (cells : ℕ → α) (n s k : ℕ) :
    (ringList cells n s k).length = k := by
  simp [ringList]

lemma add_mod_of_lt {n s i : ℕ} (hs : s < n) (hi : i < n) :
    (s + i) % n = if s + i < n then s + i else s + i - n := by
  split_ifs with h
  · exact Nat.mod_eq_of_lt h
  · rw [Nat.mod_eq_sub_mod (by omega), Nat.mod_eq_of_lt (by omega)]

lemma ring_slot_injective {n s i j : ℕ} (hs : s < n) (hi : i < n) (hj : j < n)
    (h : (s + i) % n = (s + j) % n) : i = j := by
  rw [add_mod_of_lt hs hi, add_mod_of_lt hs hj] at h
  split_ifs at h <;> omega

lemma ringList_push (cells : ℕ → α) {n s k : ℕ} (x : α) (hs : s < n) (hk : k < n) :
    ringList (Function.update cells ((s + k) % n) x) n s (k + 1) =
      ringList cells n s k ++ [x] := by
  unfold ringList
  rw [List.range_succ, List.map_append, List.map_singleton, Function.update_self]
  congr 1
  apply List.map_congr_left
  intro i hi
  have hik : i < k := List.mem_range.mp hi
  apply Function.update_of_ne
  intro h
  have := ring_slot_injective hs (Nat.lt_trans hik hk) hk h
  omega

lemma ringList_pop (cells : ℕ → α) {n s : ℕ} (k : ℕ) (hs : s < n) :
    ringList cells n s (k + 1) = cells s :: ringList cells n ((s + 1) % n) k := by
  unfold ringList
  rw [List.range_succ_eq_map, List.map_cons, List.map_map, Nat.add_zero, Nat.mod_eq_of_lt hs]
  congr 1
  apply List.map_congr_left
  intro i _
  have h : (s + (i + 1)) % n = ((s + 1) % n + i) % n := by
    rw [Nat.mod_add_mod]
    congr 1
    omega
  simp only [Function.comp_apply, Nat.succ_eq_add_one, h]

lemma ringSize_lt {n s e : ℕ} (hs : s < n) (he : e < n) : ringSize n s e < n := by
  unfold ringSize
  split_ifs <;> omega

/-- The slot behind the stored values. -/
lemma add_ringSize_mod {n s e : ℕ} (hs : s < n) (he : e < n) :
    (s + ringSize n s e) % n = e := by
  rw [add_mod_of_lt hs (ringSize_lt hs he)]
  unfold ringSize
  split_ifs <;> omega

lemma ringSize_eq_zero {n s e : ℕ} (hs : s < n) : ringSize n s e = 0 ↔ e = s := by
  unfold ringSize
  split_ifs <;> omega

lemma ringSize_push {n s e : ℕ} (hs : s < n) (he : e < n) (hk : ringSize n s e + 1 < n) :
    ringSize n s ((e + 1) % n) = ringSize n s e + 1 := by
  rw [add_mod_of_lt he (by omega)]
  unfold ringSize at *
  split_ifs at * <;> omega

lemma ringSize_pop {n s e : ℕ} (hs : s < n) (he : e < n) (hne : e ≠ s) :
    ringSize n ((s + 1) % n) e + 1 = ringSize n s e := by
  rw [add_mod_of_lt hs (by omega)]
  unfold ringSize
  split_ifs <;> omega

end ITCP.Lib
