import Mathlib.Tactic

/-!
# Words in memory

Words of 16 and 32 bits as they lie in the memory of a little-endian machine, and the exchange of
their byte order.
-/

namespace ITCP.Lib

/-- The bytes of a 16-bit word, lowest first. -/
def le16 (x : UInt16) : List UInt8 := [UInt8.ofNat x.toNat, UInt8.ofNat (x.toNat / 2 ^ 8)]

def le32 (x : UInt32) : List UInt8 :=
  [UInt8.ofNat x.toNat, UInt8.ofNat (x.toNat / 2 ^ 8), UInt8.ofNat (x.toNat / 2 ^ 16),
    UInt8.ofNat (x.toNat / 2 ^ 24)]

/-- The 16-bit word stored at an offset. -/
def word16 (l : List UInt8) (off : ℕ) : Option UInt16 :=
  match l.drop off with
  | a :: b :: _ => some (UInt16.ofNat (a.toNat + b.toNat * 2 ^ 8))
  | _ => none

def word32 (l : List UInt8) (off : ℕ) : Option UInt32 :=
  match l.drop off with
  | a :: b :: c :: d :: _ =>
    some (UInt32.ofNat (a.toNat + b.toNat * 2 ^ 8 + c.toNat * 2 ^ 16 + d.toNat * 2 ^ 24))
  | _ => none

/-- A word is read exactly when all its bytes are there. -/
lemma word16_isSome {l : List UInt8} {off : ℕ} : (word16 l off).isSome ↔ off + 2 ≤ l.length := by
  have hlen : (l.drop off).length = l.length - off := List.length_drop
  unfold word16
  rcases hdrop : l.drop off with _ | ⟨a, _ | ⟨b, rest⟩⟩ <;> rw [hdrop] at hlen <;>
    simp only [List.length_cons, List.length_nil] at hlen <;> simp <;> omega

lemma word32_isSome {l : List UInt8} {off : ℕ} : (word32 l off).isSome ↔ off + 4 ≤ l.length := by
  have hlen : (l.drop off).length = l.length - off := List.length_drop
  unfold word32
  rcases hdrop : l.drop off with _ | ⟨a, _ | ⟨b, _ | ⟨c, _ | ⟨d, rest⟩⟩⟩⟩ <;> rw [hdrop] at hlen <;>
    simp only [List.length_cons, List.length_nil] at hlen <;> simp <;> omega

lemma word16_le16 (x : UInt16) (l : List UInt8) : word16 (le16 x ++ l) 0 = some x := by
  have hx := x.toNat_lt
  simp only [word16, le16, List.drop_zero, List.cons_append, List.nil_append, Option.some.injEq]
  rw [← UInt16.toNat_inj, UInt16.toNat_ofNat', UInt8.toNat_ofNat', UInt8.toNat_ofNat']
  omega

lemma word32_le32 (x : UInt32) (l : List UInt8) : word32 (le32 x ++ l) 0 = some x := by
  have hx := x.toNat_lt
  simp only [word32, le32, List.drop_zero, List.cons_append, List.nil_append, Option.some.injEq]
  rw [← UInt32.toNat_inj, UInt32.toNat_ofNat', UInt8.toNat_ofNat', UInt8.toNat_ofNat',
    UInt8.toNat_ofNat', UInt8.toNat_ofNat']
  omega

/-- The bytes under a word that is read are those of the word. -/
lemma drop_of_word32 {l : List UInt8} {off : ℕ} {x : UInt32} (h : word32 l off = some x) :
    l.drop off = le32 x ++ l.drop (off + 4) := by
  unfold word32 at h
  split at h
  · rename_i a b c d rest hdrop
    have hrest : l.drop (off + 4) = rest := by rw [← List.drop_drop, hdrop]; rfl
    obtain rfl := Option.some.inj h
    have ha := a.toNat_lt
    have hb := b.toNat_lt
    have hc := c.toNat_lt
    have hd := d.toNat_lt
    have hx : (UInt32.ofNat (a.toNat + b.toNat * 2 ^ 8 + c.toNat * 2 ^ 16 + d.toNat * 2 ^ 24)).toNat =
        a.toNat + b.toNat * 2 ^ 8 + c.toNat * 2 ^ 16 + d.toNat * 2 ^ 24 := by
      rw [UInt32.toNat_ofNat', Nat.mod_eq_of_lt (by omega)]
    have hbyte : ∀ (y : UInt8) (k : ℕ), k % 2 ^ 8 = y.toNat → UInt8.ofNat k = y := fun y k hk => by
      rw [← UInt8.toNat_inj, UInt8.toNat_ofNat', hk]
    rw [hdrop, hrest, le32, hx, hbyte a _ (by omega), hbyte b _ (by omega), hbyte c _ (by omega),
      hbyte d _ (by omega)]
    rfl
  · cases h

/-- The 16-bit word with its bytes exchanged. -/
def swap16 (x : UInt16) : UInt16 := UInt16.ofNat (x.toNat / 2 ^ 8 + x.toNat % 2 ^ 8 * 2 ^ 8)

/-- The 32-bit word with its bytes in the opposite order. -/
def swap32 (x : UInt32) : UInt32 :=
  UInt32.ofNat (x.toNat / 2 ^ 24 + x.toNat / 2 ^ 16 % 2 ^ 8 * 2 ^ 8 +
    x.toNat / 2 ^ 8 % 2 ^ 8 * 2 ^ 16 + x.toNat % 2 ^ 8 * 2 ^ 24)

lemma swap32_toNat {x : UInt32} {a b c d : ℕ} (ha : a < 2 ^ 8) (hb : b < 2 ^ 8) (hc : c < 2 ^ 8)
    (hd : d < 2 ^ 8) (hx : x.toNat = a + b * 2 ^ 8 + c * 2 ^ 16 + d * 2 ^ 24) :
    (swap32 x).toNat = d + c * 2 ^ 8 + b * 2 ^ 16 + a * 2 ^ 24 := by
  have h24 : x.toNat / 2 ^ 24 = d := by omega
  have h16 : x.toNat / 2 ^ 16 % 2 ^ 8 = c := by omega
  have h8 : x.toNat / 2 ^ 8 % 2 ^ 8 = b := by omega
  have h0 : x.toNat % 2 ^ 8 = a := by omega
  rw [swap32, UInt32.toNat_ofNat', h24, h16, h8, h0]
  omega

@[simp] lemma swap32_swap32 (x : UInt32) : swap32 (swap32 x) = x := by
  have hlt := x.toNat_lt
  have hbyte : ∀ n : ℕ, n % 2 ^ 8 < 2 ^ 8 := fun n => Nat.mod_lt _ (by decide)
  have hx : x.toNat = x.toNat % 2 ^ 8 + x.toNat / 2 ^ 8 % 2 ^ 8 * 2 ^ 8 +
      x.toNat / 2 ^ 16 % 2 ^ 8 * 2 ^ 16 + x.toNat / 2 ^ 24 % 2 ^ 8 * 2 ^ 24 := by omega
  have hswap := swap32_toNat (hbyte _) (hbyte _) (hbyte _) (hbyte _) hx
  rw [← UInt32.toNat_inj, swap32_toNat (hbyte _) (hbyte _) (hbyte _) (hbyte _) hswap]
  exact hx.symm

end ITCP.Lib
