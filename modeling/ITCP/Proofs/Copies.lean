import ITCP.Proofs.States

/-!
# The copies of `recvTCPPacket`

Where `recvTCPPacket` copies from and to. It checks neither the sequence number nor the length of a
packet, so a copy may leave the buffer of the socket; an ACK of a byte that has been written never
makes it do so.
-/

namespace ITCP
open Lib

variable {s t : MySocket} {p : Segment} {tmp : UInt8} {out : List Segment}

lemma bufSize_lt : bufSize < 2 ^ 31 := by decide

lemma copyOut_eq {off len : ℕ} (h : off + len ≤ bufSize) :
    s.copyOut off len = some (readAt s.databuf off len) := by
  rw [MySocket.copyOut, if_pos (by omega), Int.toNat_natCast, Int.toNat_natCast]

namespace MySocket

/-- The packet gets to `recvTCPPacket`. -/
def Transfers (s : MySocket) (p : Segment) : Prop :=
  ¬isSyn p.flag ∧ ¬isFin p.flag ∧ (isAck p.flag → s.tcb.status = .estab)

instance : Decidable (s.Transfers p) := inferInstanceAs (Decidable (_ ∧ _ ∧ _))

/-- How many bytes `recvAck` sends once more. -/
def resent (s : MySocket) (p : Segment) : ℕ := min 1000 ((u32 s.sizep).toNat - p.ack.toNat)

/-- The copy of `recvTCPPacket` stays in the buffer. -/
def CopyFits (s : MySocket) (p : Segment) : Prop :=
  if isAck p.flag then
    s.role ≠ .server → p.ack < u32 s.sizep → p.ack.toNat + s.resent p ≤ bufSize
  else p.seq.toNat + p.payload.length ≤ bufSize

instance : Decidable (s.CopyFits p) :=
  inferInstanceAs (Decidable (if isAck p.flag then _ → _ → _ ≤ _ else _ ≤ _))

lemma copyOut_isSome {off len : ℤ} :
    (s.copyOut off len).isSome ↔ 0 ≤ off ∧ 0 ≤ len ∧ off + len ≤ bufSize := by
  unfold copyOut
  split_ifs with h <;> simp [h]

lemma copyIn_isSome {off : ℤ} {buf : List UInt8} :
    (s.copyIn off buf).isSome ↔ 0 ≤ off ∧ off + buf.length ≤ bufSize := by
  unfold copyIn
  split_ifs with h <;> simp [h]

lemma recvData_isSome :
    (s.recvData p tmp).isSome ↔ p.seq.toNat + p.payload.length ≤ bufSize := by
  have hcopy : (s.copyIn p.seq.toNat p.payload).isSome ↔
      p.seq.toNat + p.payload.length ≤ bufSize := by
    rw [copyIn_isSome]
    omega
  rw [← hcopy, recvData]
  cases s.copyIn p.seq.toNat p.payload <;> simp

/-- The send step of a write sends the bytes from `writep` on and moves `writep` behind them. -/
lemma wrapWriteSend_eq (h0 : 0 ≤ s.writep) (hw : s.writep ≤ s.sizep) (hs : s.sizep ≤ bufSize) :
    s.wrapWriteSend = some ({ s with writep := s.writep + min 1000 (s.sizep - s.writep) },
      [sendTCPPacket (readAt s.databuf s.writep.toNat (min 1000 (s.sizep - s.writep)).toNat) s.address
        (u32 s.writep) 0 0]) := by
  have hlen : (if s.writep + 1000 > s.sizep then s.sizep - s.writep else 1000) =
      min 1000 (s.sizep - s.writep) := by
    split_ifs <;> omega
  have hcopy : s.copyOut s.writep (min 1000 (s.sizep - s.writep)) =
      some (readAt s.databuf s.writep.toNat (min 1000 (s.sizep - s.writep)).toNat) :=
    if_pos ⟨h0, by omega, by omega⟩
  unfold MySocket.wrapWriteSend
  simp only [hlen, hcopy, Option.bind_eq_bind, Option.bind_some]

/-- Whatever the offsets are, nothing but `writep` changes. -/
lemma wrapWriteSend_eq_some (h : s.wrapWriteSend = some (t, out)) :
    t = { s with
      writep := s.writep + (if s.writep + 1000 > s.sizep then s.sizep - s.writep else 1000) } := by
  obtain ⟨buf, -, h⟩ := Option.bind_eq_some_iff.mp h
  exact (Prod.mk.inj (Option.some.inj h)).1.symm

/-- The length that `recvAck` computes with unsigned numbers. -/
lemma resent_toNat (h : p.ack < u32 s.sizep) :
    (if u32 s.sizep - p.ack < 1000 then u32 s.sizep - p.ack else 1000).toNat = s.resent p := by
  have hlt := UInt32.lt_iff_toNat_lt.mp h
  have hsub := UInt32.toNat_sub_of_le _ _ (UInt32.le_of_lt h)
  have hthousand : (1000 : UInt32).toNat = 1000 := rfl
  unfold resent
  split_ifs with hless
  · rw [UInt32.lt_iff_toNat_lt] at hless
    omega
  · rw [UInt32.lt_iff_toNat_lt] at hless
    omega

lemma recvAck_server (h : s.role = .server) : s.recvAck p = some (s, []) := if_pos h

lemma recvAck_all (hrole : s.role ≠ .server) (hack : u32 s.sizep ≤ p.ack) :
    s.recvAck p = some ({ s with writep := i32 p.ack }, []) := by
  rw [recvAck, if_neg hrole, if_pos hack]

/-- An ACK of less than what has been written sends the bytes behind its number once more. -/
lemma recvAck_part (hrole : s.role ≠ .server) (hack : p.ack < u32 s.sizep) :
    s.recvAck p = (s.copyOut p.ack.toNat (s.resent p)).map (fun buf =>
      ({ s with writep := i32 p.ack }, [sendTCPPacket buf p.info.mirror p.ack
        (p.seq + UInt32.ofNat p.payload.length) 0])) := by
  rw [recvAck, if_neg hrole, if_neg (UInt32.not_le.mpr hack)]
  dsimp only
  rw [resent_toNat hack]
  cases s.copyOut p.ack.toNat (s.resent p) <;> rfl

lemma recvAck_isSome : (s.recvAck p).isSome ↔
    (s.role ≠ .server → p.ack < u32 s.sizep → p.ack.toNat + s.resent p ≤ bufSize) := by
  by_cases hrole : s.role = .server
  · rw [recvAck_server hrole]
    exact iff_of_true rfl fun h => absurd hrole h
  by_cases hack : p.ack < u32 s.sizep
  · rw [recvAck_part hrole hack, Option.isSome_map, copyOut_isSome]
    constructor
    · intro h _ _
      omega
    · intro h
      have := h hrole hack
      omega
  · rw [recvAck_all hrole (UInt32.not_lt.mp hack)]
    exact iff_of_true rfl fun _ h => absurd h hack

lemma recvTCPPacket_isSome : (s.recvTCPPacket p tmp).isSome ↔ s.CopyFits p := by
  unfold recvTCPPacket CopyFits
  split_ifs
  · exact recvAck_isSome
  · exact recvData_isSome

lemma located_copyFits : (s.located p).CopyFits p ↔ s.CopyFits p := by
  unfold located CopyFits resent
  split_ifs <;> exact Iff.rfl

lemma readIPPacket_of_transfers (h : s.Transfers p) (hfits : p.Fits) :
    s.readIPPacket p tmp = (s.located p).recvTCPPacket p tmp := by
  obtain ⟨hsyn, hfin, hack⟩ := h
  rw [readIPPacket, if_neg (not_not_intro hfits)]
  generalize hr : s.located p = r
  have hstatus : r.tcb = s.tcb := by rw [← hr, located_tcb]
  unfold located at hr
  dsimp only
  rw [hr]
  simp only [hsyn, hfin, Bool.false_and, Bool.false_eq_true, if_false]
  by_cases hp : isAck p.flag
  · have hestab : r.tcb.status = .estab := by rw [hstatus, hack hp]
    simp [hp, hestab]
  · simp [hp]

/-- A packet that does not get there is processed whenever it fits into the buffer. -/
lemma readIPPacket_of_not_transfers (h : ¬s.Transfers p) (hfits : p.Fits) :
    (s.readIPPacket p tmp).isSome := by
  rw [readIPPacket, if_neg (not_not_intro hfits)]
  generalize hr : s.located p = r
  have hstatus : r.tcb = s.tcb := by rw [← hr, located_tcb]
  unfold located at hr
  dsimp only
  rw [hr]
  by_cases hsyn : isSyn p.flag
  · cases isAck p.flag <;>
      simp only [hsyn, Bool.true_and, Bool.not_true, Bool.not_false, Bool.false_eq_true,
        if_false, if_true] <;>
      split_ifs <;> rfl
  by_cases hfin : isFin p.flag
  · simp only [hsyn, hfin, Bool.false_and, Bool.false_eq_true, if_false, if_true]
    split_ifs <;> rfl
  by_cases hack : isAck p.flag
  · have hestab : r.tcb.status ≠ .estab := by
      rw [hstatus]
      exact fun hst => h ⟨hsyn, hfin, fun _ => hst⟩
    simp only [hsyn, hfin, hack, hestab, Bool.false_and, Bool.false_eq_true, if_false, if_true]
    split_ifs <;> rfl
  · exact absurd ⟨hsyn, hfin, fun hack' => absurd hack' hack⟩ h

theorem readIPPacket_isSome :
    (s.readIPPacket p tmp).isSome ↔ p.Fits ∧ (s.Transfers p → s.CopyFits p) := by
  by_cases hfits : p.Fits
  · by_cases h : s.Transfers p
    · rw [readIPPacket_of_transfers h hfits, recvTCPPacket_isSome, located_copyFits]
      exact ⟨fun hcopy => ⟨hfits, fun _ => hcopy⟩, fun hcopy => hcopy.2 h⟩
    · exact iff_of_true (readIPPacket_of_not_transfers h hfits) ⟨hfits, fun h' => absurd h' h⟩
  · rw [readIPPacket, if_pos hfits]
    exact iff_of_false Bool.false_ne_true fun h => hfits h.1

end MySocket

end ITCP
