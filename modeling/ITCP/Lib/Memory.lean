import Mathlib.Order.Basic
import Mathlib.Data.List.Basic
import Mathlib.Tactic.SplitIfs

/-!
# Memory and streams

A buffer is the function from its offsets to the bytes stored there; `readAt` and `writeAt` copy
a run of bytes out of it and into it. `HoldsPrefix b X n` says that the first `n` bytes of the
buffer are the first `n` bytes of the stream `X`.
-/

namespace ITCP.Lib

variable {β : Type*}

/-- The `len` bytes from offset `off` on. -/
def readAt (b : ℕ → β) (off len : ℕ) : List β := (List.range len).map (fun i => b (off + i))

/-- The buffer after the bytes `src` have been copied to offset `off`. -/
def writeAt (b : ℕ → β) (off : ℕ) (src : List β) : ℕ → β :=
  fun i => if off ≤ i then src[i - off]?.getD (b i) else b i

/-- The `len` bytes of the stream from position `off` on. -/
def slice (X : List β) (off len : ℕ) : List β := (X.drop off).take len

def HoldsPrefix (b : ℕ → β) (X : List β) (n : ℕ) : Prop := ∀ i, i < n → X[i]? = some (b i)

variable {b : ℕ → β} {X Y : List β} {n q l : ℕ}

@[simp] lemma readAt_length (b : ℕ → β) (off len : ℕ) : (readAt b off len).length = len := by
  simp [readAt]

lemma slice_length (h : q + l ≤ X.length) : (slice X q l).length = l := by
  simp only [slice, List.length_take, List.length_drop]
  omega

lemma slice_append (h : q + l ≤ X.length) : slice (X ++ Y) q l = slice X q l := by
  unfold slice
  rw [List.drop_append_of_le_length (by omega), List.take_append_of_le_length]
  rw [List.length_drop]
  omega

lemma take_append_slice (X : List β) (q l : ℕ) : X.take q ++ slice X q l = X.take (q + l) :=
  List.take_add.symm

lemma writeAt_slice_of_mem (h : q + l ≤ X.length) {i : ℕ} (hq : q ≤ i) (hi : i < q + l) :
    X[i]? = some (writeAt b q (slice X q l) i) := by
  have hx : X[i]? = some X[i] := List.getElem?_eq_getElem (by omega)
  have hs : (slice X q l)[i - q]? = X[i]? := by
    rw [slice, List.getElem?_take_of_lt (by omega), List.getElem?_drop]
    congr 1
    omega
  rw [writeAt, if_pos hq, hs, hx, Option.getD_some]

lemma writeAt_of_not_mem (b : ℕ → β) (src : List β) {off i : ℕ}
    (h : ¬(off ≤ i ∧ i < off + src.length)) : writeAt b off src i = b i := by
  unfold writeAt
  split_ifs with ho
  · rw [List.getElem?_eq_none (by omega), Option.getD_none]
  · rfl

/-- A byte of the buffer stays, or it is replaced by one of the bytes copied. -/
lemma writeAt_cases (b : ℕ → β) (off : ℕ) (src : List β) (i : ℕ) :
    writeAt b off src i = b i ∨ writeAt b off src i ∈ src := by
  unfold writeAt
  split_ifs
  · cases h : src[i - off]? with
    | none => exact Or.inl rfl
    | some x => exact Or.inr (List.mem_of_getElem? h)
  · exact Or.inl rfl

namespace HoldsPrefix

/-- Reading from the prefix returns bytes of the stream. -/
lemma readAt_eq (h : HoldsPrefix b X n) (hq : q + l ≤ n) : readAt b q l = slice X q l := by
  apply List.ext_getElem?
  intro i
  by_cases hi : i < l
  · rw [slice, List.getElem?_take_of_lt hi, List.getElem?_drop, h (q + i) (by omega)]
    simp [readAt, hi]
  · rw [List.getElem?_eq_none (by simpa using hi), List.getElem?_eq_none]
    simp only [slice, List.length_take]
    omega

/-- New bytes copied behind the whole stream are the continuation of the stream. -/
lemma writeAt_end (h : HoldsPrefix b X X.length) (Y : List β) :
    HoldsPrefix (writeAt b X.length Y) (X ++ Y) (X ++ Y).length := by
  intro i hi
  by_cases hx : i < X.length
  · rw [writeAt, if_neg (by omega), List.getElem?_append_left hx]
    exact h i hx
  · have hy : i - X.length < Y.length := by
      rw [List.length_append] at hi
      omega
    rw [writeAt, if_pos (by omega), List.getElem?_append_right (by omega),
      List.getElem?_eq_getElem hy, Option.getD_some]

end HoldsPrefix

end ITCP.Lib
