import ITCP.Proofs.Copies
import ITCP.Proofs.Flow

/-!
# The locked sections on a stream

What the sections that run under `data_mtx` do on a socket whose buffer holds a stream, when all
numbers stay below the size of the buffer.
-/

namespace ITCP
open Lib

/-- The piece of the stream that a packet carries: its offset and its length. -/
def Segment.piece (p : Segment) : ℕ × ℕ := (p.seq.toNat, p.payload.length)

/-- The packet carries its piece of the stream `X` that is sent under `address`. -/
structure IsPiece (address : Tuple4) (X : List UInt8) (p : Segment) : Prop where
  flag : p.flag = 0
  info : p.info = address
  end_le : pieceEnd p.piece ≤ X.length
  payload : p.payload = slice X p.piece.1 p.piece.2
  short : p.payload.length ≤ 1000

/-- The packet acknowledges data that was sent under `address`. -/
structure IsAcknowledgement (address : Tuple4) (p : Segment) : Prop where
  flag : p.flag = setAck 0
  info : p.info = address.mirror
  short : p.payload.length ≤ 1000

lemma Segment.fits_of_short {p : Segment} (h : p.payload.length ≤ 1000) : p.Fits := by
  unfold Segment.Fits
  omega

lemma IsPiece.append {address : Tuple4} {X : List UInt8} {p : Segment} (h : IsPiece address X p)
    (Y : List UInt8) : IsPiece address (X ++ Y) p where
  flag := h.flag
  info := h.info
  end_le := by
    rw [List.length_append]
    exact Nat.le_add_right_of_le h.end_le
  payload := by rw [slice_append h.end_le, ← h.payload]
  short := h.short

variable {s t : MySocket} {p : Segment} {X : List UInt8} {address : Tuple4}

lemma copyIn_eq {off : ℕ} {buf : List UInt8} (h : off + buf.length ≤ bufSize) :
    s.copyIn off buf = some (writeAt s.databuf off buf) := by
  rw [MySocket.copyIn, if_pos (by omega), Int.toNat_natCast]

lemma mywrite_eq_some {buf : List UInt8} :
    s.mywrite buf = some t ↔ 0 ≤ s.sizep ∧ s.sizep + buf.length ≤ bufSize ∧
      t = { s with databuf := writeAt s.databuf s.sizep.toNat buf, sizep := s.sizep + buf.length } := by
  unfold MySocket.mywrite MySocket.copyIn
  split_ifs with h
  · simp [h, eq_comm]
  · simp only [Option.bind_eq_bind, Option.bind_none, reduceCtorEq, false_iff]
    exact fun h' => h ⟨h'.1, h'.2.1⟩

lemma myread_eq_some {len : ℤ} {buf : List UInt8} :
    s.myread len = some (buf, t) ↔ 0 ≤ s.readp ∧ 0 ≤ len ∧ s.readp + len ≤ bufSize ∧
      buf = readAt s.databuf s.readp.toNat len.toNat ∧ t = { s with readp := s.readp + len } := by
  unfold MySocket.myread MySocket.copyOut
  split_ifs with h
  · simp [h, eq_comm]
  · simp only [Option.bind_eq_bind, Option.bind_none, reduceCtorEq, false_iff]
    exact fun h' => h ⟨h'.1, h'.2.1, h'.2.2.1⟩

/-- The sequence number behind a packet of the stream. -/
lemma seq_add_toNat (h : pieceEnd p.piece ≤ bufSize) :
    (p.seq + UInt32.ofNat p.payload.length).toNat = pieceEnd p.piece := by
  have hlt := bufSize_lt
  simp only [pieceEnd, Segment.piece] at h ⊢
  rw [UInt32.toNat_add, UInt32.toNat_ofNat', Nat.mod_eq_of_lt (a := p.payload.length) (by omega),
    Nat.mod_eq_of_lt (by omega)]

/-- The data branch copies the bytes to their place, moves `sizep` behind them if it is not there
yet, and acknowledges their end. -/
lemma recvData_spec (tmp : UInt8) (hp : pieceEnd p.piece ≤ bufSize) (h0 : 0 ≤ s.sizep)
    (hs : s.sizep < 2 ^ 31) :
    s.recvData p tmp = some ({ s with
        databuf := writeAt s.databuf p.seq.toNat p.payload
        sizep := max s.sizep (pieceEnd p.piece) },
      [sendTCPPacket [tmp] p.info.mirror p.ack (p.seq + UInt32.ofNat p.payload.length)
        (setAck 0)]) := by
  have hlt := bufSize_lt
  have hseq := seq_add_toNat hp
  have hsize : (u32 s.sizep).toNat = s.sizep.toNat := u32_toNat h0 (by omega)
  have hcmp : p.seq + UInt32.ofNat p.payload.length > u32 s.sizep ↔ s.sizep < pieceEnd p.piece := by
    rw [gt_iff_lt, UInt32.lt_iff_toNat_lt, hseq, hsize]
    omega
  have hnew : i32 (p.seq + UInt32.ofNat p.payload.length) = pieceEnd p.piece := by
    rw [i32_eq (by omega), hseq]
  have hcopy : s.copyIn p.seq.toNat p.payload = some (writeAt s.databuf p.seq.toNat p.payload) :=
    copyIn_eq hp
  unfold MySocket.recvData
  rw [hcopy]
  have hsizep : (if s.sizep < pieceEnd p.piece then (pieceEnd p.piece : ℤ) else s.sizep) =
      max s.sizep (pieceEnd p.piece) := by
    split_ifs <;> omega
  simp only [Option.bind_eq_bind, Option.bind_some, hcmp, hnew, hsizep]

/-- The ACK branch moves `writep` back to the number, and sends the bytes behind it again. -/
lemma recvAck_spec (h : s.role ≠ .server) (hs : s.sizep = X.length) (hX : X.length ≤ bufSize)
    (ha : p.ack.toNat ≤ X.length) (hb : HoldsPrefix s.databuf X X.length)
    (hp : IsAcknowledgement address p) :
    ∃ out, s.recvAck p = some ({ s with writep := p.ack.toNat }, out) ∧
      (∀ q ∈ out, IsPiece address X q) ∧
      out.map Segment.piece =
        if p.ack.toNat < X.length then [(p.ack.toNat, min 1000 (X.length - p.ack.toNat))] else [] := by
  have hlt := bufSize_lt
  have hsize : (u32 s.sizep).toNat = X.length := by
    rw [u32_toNat (by omega) (by omega)]
    omega
  have hwritep : i32 p.ack = p.ack.toNat := i32_eq (by omega)
  have hcmp : p.ack < u32 s.sizep ↔ p.ack.toNat < X.length := by
    rw [UInt32.lt_iff_toNat_lt, hsize]
  by_cases hend : p.ack.toNat < X.length
  · have hresent : s.resent p = min 1000 (X.length - p.ack.toNat) := by rw [MySocket.resent, hsize]
    rw [MySocket.recvAck_part h (hcmp.mpr hend), hwritep, if_pos hend, hresent, copyOut_eq (by omega)]
    refine ⟨_, rfl, ?_, ?_⟩
    · rintro q hq
      obtain rfl := List.mem_singleton.mp hq
      constructor
      · rfl
      · rw [sendTCPPacket, hp.info, Tuple4.mirror_mirror]
      · simp only [pieceEnd, Segment.piece, sendTCPPacket, readAt_length]
        omega
      · simp only [Segment.piece, sendTCPPacket, readAt_length]
        exact hb.readAt_eq (by omega)
      · rw [sendTCPPacket, readAt_length]
        exact Nat.min_le_left _ _
    · simp [Segment.piece, sendTCPPacket]
  · rw [MySocket.recvAck_all h (UInt32.not_lt.mp (mt hcmp.mp hend)), hwritep, if_neg hend]
    exact ⟨[], rfl, by simp, rfl⟩

/-- The send step sends the bytes from `writep` on and moves `writep` behind them. -/
lemma wrapWriteSend_spec (hs : s.sizep = X.length) (hX : X.length ≤ bufSize) (h0 : 0 ≤ s.writep)
    (hw : s.writep ≤ s.sizep) (hb : HoldsPrefix s.databuf X X.length) :
    ∃ q, s.wrapWriteSend = some ({ s with
        writep := s.writep + (min 1000 (X.length - s.writep.toNat) : ℕ) }, [q]) ∧
      IsPiece s.address X q ∧
      q.piece = (s.writep.toNat, min 1000 (X.length - s.writep.toNat)) := by
  have hlt := bufSize_lt
  have hlen : min 1000 (s.sizep - s.writep) = (min 1000 (X.length - s.writep.toNat) : ℕ) := by omega
  have hseq : (u32 s.writep).toNat = s.writep.toNat := u32_toNat h0 (by omega)
  rw [MySocket.wrapWriteSend_eq h0 hw (by omega), hlen, Int.toNat_natCast]
  refine ⟨_, rfl, ⟨rfl, rfl, ?_, ?_, ?_⟩, ?_⟩
  · simp only [pieceEnd, Segment.piece, sendTCPPacket, readAt_length, hseq]
    omega
  · simp only [Segment.piece, sendTCPPacket, readAt_length, hseq]
    exact hb.readAt_eq (by omega)
  · rw [sendTCPPacket, readAt_length]
    exact Nat.min_le_left _ _
  · simp only [Segment.piece, sendTCPPacket, readAt_length, hseq]

/-! ### Packets of an established connection -/

lemma readIPPacket_piece (tmp : UInt8) (hs : s.tcb.status = .estab) (h : p.flag = 0)
    (hfits : p.Fits) : s.readIPPacket p tmp = s.recvData p tmp := by
  have hsyn : isSyn p.flag = false := by rw [h]; decide
  have hfin : isFin p.flag = false := by rw [h]; decide
  have hack : isAck p.flag = false := by rw [h]; decide
  simp [MySocket.readIPPacket, MySocket.recvTCPPacket, hfits, hsyn, hfin, hack, hs]

lemma readIPPacket_ack (tmp : UInt8) (hs : s.tcb.status = .estab) (h : p.flag = setAck 0)
    (hfits : p.Fits) : s.readIPPacket p tmp = s.recvAck p := by
  have hsyn : isSyn p.flag = false := by rw [h]; decide
  have hfin : isFin p.flag = false := by rw [h]; decide
  have hack : isAck p.flag = true := by rw [h]; decide
  simp [MySocket.readIPPacket, MySocket.recvTCPPacket, hfits, hsyn, hfin, hack, hs]

end ITCP
