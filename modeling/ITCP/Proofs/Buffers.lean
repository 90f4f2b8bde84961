import ITCP.Proofs.Streams

/-!
# The receive buffer

As long as no read is overtaken by another one on the same socket, and what is written and received
fits into the buffer, the offset of the reader stays behind the end of the data, which stays in the
buffer. Data segments are copied to where they say, and one that reaches beyond the buffer is not
rejected.
-/

namespace ITCP
open Lib

namespace MySocket

variable {s t : MySocket} {p : Segment} {tmp : UInt8} {out : List Segment}

/-- What has been read is behind what has arrived, and both are in the buffer. -/
structure Bounded (s : MySocket) : Prop where
  nonneg : 0 ≤ s.readp
  readp_le : s.readp ≤ s.sizep
  sizep_le : s.sizep ≤ bufSize

/-- The segment is received into the buffer; if it reaches beyond the buffer, nothing happens. -/
structure Contained (s : MySocket) (p : Segment) (tmp : UInt8) : Prop where
  inside : ∃ t out, s.recvTCPPacket p tmp = some (t, out) ∧ t.Bounded
  rejected : bufSize < p.seq.toNat + p.payload.length →
    ∃ t out, s.recvTCPPacket p tmp = some (t, out) ∧ t.databuf = s.databuf ∧ t.sizep = s.sizep

namespace Bounded

lemma of_same (h : s.Bounded) (hst : SameStream s t) : t.Bounded :=
  ⟨hst.readp ▸ h.nonneg, by rw [hst.readp, hst.sizep]; exact h.readp_le, hst.sizep ▸ h.sizep_le⟩

lemma sized (h : s.Bounded) : s.Sized := by
  have := h.nonneg
  have := h.readp_le
  have := h.sizep_le
  have := bufSize_lt
  exact ⟨by omega, by omega⟩

/-- The data branch moves the end of the data forward, and not out of the buffer. -/
lemma recvTCPPacket (h : s.Bounded) (ht : s.recvTCPPacket p tmp = some (t, out)) : t.Bounded := by
  unfold MySocket.recvTCPPacket at ht
  split_ifs at ht
  · obtain ⟨-, rfl, -⟩ | ⟨-, rfl, -⟩ := recvAck_eq_some ht
    · exact h
    · exact ⟨h.nonneg, h.readp_le, h.sizep_le⟩
  · have hfits := recvData_isSome.mp (Option.isSome_iff_exists.mpr ⟨_, ht⟩)
    rw [recvData_spec tmp hfits h.sized.nonneg h.sized.fits] at ht
    cases ht
    have hend : (pieceEnd p.piece : ℤ) ≤ bufSize := by exact_mod_cast hfits
    exact ⟨h.nonneg, h.readp_le.trans (le_max_left _ _), max_le h.sizep_le hend⟩

/-- A read that has not been overtaken takes what has arrived. -/
lemma myread {len : ℤ} {buf : List UInt8} (h : s.Bounded) (hready : s.readp + len ≤ s.sizep)
    (ht : s.myread len = some (buf, t)) : t.Bounded := by
  obtain ⟨-, hlen, -, -, rfl⟩ := myread_eq_some.mp ht
  have := h.nonneg
  exact ⟨by dsimp only; omega, hready, h.sizep_le⟩

lemma mywrite {buf : List UInt8} (h : s.Bounded) (ht : s.mywrite buf = some t) : t.Bounded := by
  obtain ⟨-, hle, rfl⟩ := mywrite_eq_some.mp ht
  have := h.readp_le
  exact ⟨h.nonneg, by dsimp only; omega, hle⟩

lemma wrapWriteSend (h : s.Bounded) (ht : s.wrapWriteSend = some (t, out)) : t.Bounded := by
  obtain rfl := wrapWriteSend_eq_some ht
  exact ⟨h.nonneg, h.readp_le, h.sizep_le⟩

/-- An ACK makes nothing be copied that is not in the buffer. -/
lemma copyFits (h : s.Bounded) (hack : isAck p.flag) : s.CopyFits p := by
  have hsize := u32_toNat h.sized.nonneg (h.sized.fits.trans (by norm_num))
  rw [CopyFits, if_pos hack]
  intro _ hlt
  rw [UInt32.lt_iff_toNat_lt, hsize] at hlt
  have := h.sizep_le
  unfold resent
  rw [hsize]
  omega

end Bounded

/-- A segment is contained if it is an ACK or fits into the buffer, and only then. -/
lemma contained_iff (hs : s.Bounded) :
    s.Contained p tmp ↔ isAck p.flag ∨ p.seq.toNat + p.payload.length ≤ bufSize := by
  have hcopy : (s.recvTCPPacket p tmp).isSome ↔ s.CopyFits p := recvTCPPacket_isSome
  by_cases hack : isAck p.flag
  · refine iff_of_true ?_ (Or.inl hack)
    obtain ⟨⟨t, out⟩, ht⟩ := Option.isSome_iff_exists.mp (hcopy.mpr (hs.copyFits hack))
    refine ⟨⟨t, out, ht, hs.recvTCPPacket ht⟩, fun _ => ⟨t, out, ht, ?_⟩⟩
    rw [MySocket.recvTCPPacket, if_pos hack] at ht
    obtain ⟨-, rfl, -⟩ | ⟨-, rfl, -⟩ := recvAck_eq_some ht
    · exact ⟨rfl, rfl⟩
    · exact ⟨rfl, rfl⟩
  · rw [CopyFits, if_neg hack] at hcopy
    constructor
    · rintro ⟨⟨t, out, ht, -⟩, -⟩
      exact Or.inr (hcopy.mp (Option.isSome_iff_exists.mpr ⟨_, ht⟩))
    · rintro (h | hfits)
      · exact absurd h hack
      · obtain ⟨⟨t, out⟩, ht⟩ := Option.isSome_iff_exists.mp (hcopy.mpr hfits)
        exact ⟨⟨t, out, ht, hs.recvTCPPacket ht⟩, fun hlt => absurd hfits (not_le.mpr hlt)⟩

end MySocket

namespace Streams

variable {v w : Streams} {e : StreamsEvent} {es : List StreamsEvent}

/-- No other read of the socket has returned since the read that returns began; what is written fits
into the buffer behind the data; a packet fits into the buffers it is copied into, and its data into
that of the socket. -/
def current (v : Streams) : StreamsEvent → Bool
  | .readReturn i => (v.reads[i]?).all (fun r =>
    (v.sockets.find? r.fildes).all (fun s => s.readp == r.pastread))
  | .write fildes buf =>
    (v.sockets.find? fildes).all (fun s => decide (s.sizep + (buf.length : ℤ) ≤ bufSize))
  | .host (.threads (.receive p)) => decide p.Fits
  | .host (.threads (.processorStep tmp)) =>
    (v.processing (.host (.threads (.processorStep tmp)))).all (fun a =>
      decide (a.1.Transfers a.2 → a.1.CopyFits a.2))
  | _ => true

lemma bounded_next (hc : v.current e) (hv : ∀ fd s, v.sockets.find? fd = some s → s.Bounded)
    (hw : v.next e = some w) : ∀ fd s, w.sockets.find? fd = some s → s.Bounded := by
  refine forall_next ?_ (fun s t hst hs => hs.of_same hst) ?_ ?_ (fun s buf t ht hs => hs.mywrite ht)
    (fun s t out ht hs => hs.wrapWriteSend ht) hv hw
  · exact fun address b => ⟨le_rfl, le_rfl, Int.natCast_nonneg bufSize⟩
  · exact fun s p tmp t out _ hs _ ht => (hs.of_same (s.sameStream_located p)).recvTCPPacket ht
  · rintro i r s buf t rfl hr hs hready ht hbounded
    simp only [current, hr, hs, Option.all_some, beq_iff_eq] at hc
    exact hbounded.myread (hc ▸ hready) ht

/-- In every run in which no read is overtaken and nothing leaves the buffers, the offsets of every
socket stay in its buffer, and a segment is contained exactly when it is an ACK or fits into it. -/
theorem received_data_contained
    (h : run (restrict (fun v e => v.current e = true) next) init es = some v) :
    ∀ fd s, v.sockets.find? fd = some s → s.Bounded ∧ ∀ p tmp,
      (s.Contained p tmp ↔ isAck p.flag ∨ p.seq.toNat + p.payload.length ≤ bufSize) := by
  have hinv : ∀ fd s, v.sockets.find? fd = some s → s.Bounded := by
    refine run_invariant (I := fun v => ∀ fd s, v.sockets.find? fd = some s → s.Bounded) ?_
      (fun _ _ hs => (nomatch hs)) h
    intro v e w hv hw
    obtain ⟨hc, hw⟩ := restrict_eq_some.mp hw
    exact bounded_next hc hv hw
  exact fun fd s hs => ⟨hinv fd s hs, fun p tmp => MySocket.contained_iff (hinv fd s hs)⟩

/-- A socket whose two bytes are read by one call after the other. -/
def readTwice : List StreamsEvent :=
  [.host Host.socketCall, .write 100 [1, 2], .read 100 1, .readReturn 0, .read 100 1, .readReturn 0]

theorem received_data_contained_readTwice : ∃ v s, run next init readTwice = some v ∧
    v.sockets.find? 100 = some s ∧ s.readp = 2 ∧ s.Bounded ∧
    s.Contained ⟨default, 2, 0, 0, [3, 4]⟩ 0 := by
  have hread : (run (restrict (fun v e => v.current e = true) next) init readTwice).map
      (fun v => (v.sockets.find? 100).map MySocket.readp) = some (some 2) := by decide +kernel
  obtain ⟨v, s, hv, hs, hread⟩ := exists_socket hread
  obtain ⟨hbounded, hcontained⟩ := received_data_contained hv 100 s hs
  exact ⟨v, s, run_of_restrict hv, hs, hread, hbounded,
    (hcontained _ 0).mpr (Or.inr (by decide +kernel))⟩

/-- A segment that reaches beyond the buffer is not rejected, and neither is one whose end wraps
around. Two reads that wait for the same bytes both return. -/
theorem received_data_not_contained :
    (∃ v s, run next init [.host Host.socketCall] = some v ∧ v.sockets.find? 100 = some s ∧
      ¬s.Contained ⟨default, 0x100000, 0, 0, [1]⟩ 0 ∧
      ¬s.Contained ⟨default, 0xffffffff, 0, 0, [1, 2]⟩ 0) ∧
    ∃ v s, run next init [.host Host.socketCall, .write 100 [1, 2], .read 100 2, .read 100 2,
      .readReturn 0, .readReturn 0] = some v ∧ v.sockets.find? 100 = some s ∧
      s.readp = 4 ∧ s.sizep = 2 ∧ ¬s.Bounded := by
  have hnew : (run next init [.host Host.socketCall]).map
      (fun v => (v.sockets.find? 100).map (fun s => (s.recvTCPPacket ⟨default, 0x100000, 0, 0, [1]⟩ 0
        |>.isSome, s.recvTCPPacket ⟨default, 0xffffffff, 0, 0, [1, 2]⟩ 0 |>.isSome))) =
      some (some (false, false)) := by decide +kernel
  have hread : (run next init [.host Host.socketCall, .write 100 [1, 2], .read 100 2, .read 100 2,
      .readReturn 0, .readReturn 0]).map (fun v => (v.sockets.find? 100).map
        (fun s => (s.readp, s.sizep))) = some (some (4, 2)) := by decide +kernel
  constructor
  · obtain ⟨v, s, hv, hs, hnew⟩ := exists_socket hnew
    obtain ⟨hbeyond, hwrapped⟩ := Prod.mk.inj hnew
    refine ⟨v, s, hv, hs, ?_, ?_⟩
    · rintro ⟨⟨t, out, ht, -⟩, -⟩
      rw [ht] at hbeyond
      cases hbeyond
    · rintro ⟨⟨t, out, ht, -⟩, -⟩
      rw [ht] at hwrapped
      cases hwrapped
  · obtain ⟨v, s, hv, hs, hread⟩ := exists_socket hread
    obtain ⟨hreadp, hsizep⟩ := Prod.mk.inj hread
    refine ⟨v, s, hv, hs, hreadp, hsizep, fun hbounded => ?_⟩
    have hle := hbounded.readp_le
    rw [hreadp, hsizep] at hle
    exact absurd hle (by decide)

end Streams

end ITCP
