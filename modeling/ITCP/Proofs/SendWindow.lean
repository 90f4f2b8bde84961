import ITCP.Proofs.Streams

/-!
# The send window

What has been sent is a part of what has been written as long as no ACK goes beyond what has been
written. `recvTCPPacket` takes the number of any ACK for the new offset, and `mywrite` does not look
at the space that is left.
-/

namespace ITCP
open Lib

namespace MySocket

variable {s t : MySocket} {p : Segment} {tmp : UInt8} {out : List Segment} {buf : List UInt8}

/-- What has been sent is a part of what has been written, which is in the buffer. -/
structure Window (s : MySocket) : Prop where
  nonneg : 0 ≤ s.writep
  writep_le : s.writep ≤ s.sizep
  sizep_le : s.sizep ≤ bufSize

/-- The segment carries at most 1000 bytes, which have been written. -/
structure Within (s : MySocket) (q : Segment) : Prop where
  length_le : q.payload.length ≤ 1000
  end_le : (q.seq.toNat : ℤ) + q.payload.length ≤ s.sizep

/-- A write keeps the window if it fits, and is refused if it does not. -/
structure WritesWell (s : MySocket) (buf : List UInt8) : Prop where
  written : s.sizep + buf.length ≤ bufSize → ∃ t, s.mywrite buf = some t ∧ t.Window
  refused : bufSize < s.sizep + buf.length → s.mywrite buf = some s

/-- The section of a write that sends keeps the window, and sends what has been written. -/
def SendsWell (s : MySocket) : Prop :=
  ∃ t out, s.wrapWriteSend = some (t, out) ∧ t.Window ∧ ∀ q ∈ out, s.Within q

/-- So does the processing of the packet by `recvTCPPacket`. -/
def AcksWell (s : MySocket) (p : Segment) (tmp : UInt8) : Prop :=
  ∃ t out, s.recvTCPPacket p tmp = some (t, out) ∧ t.Window ∧ ∀ q ∈ out, s.Within q

/-- The packet acknowledges no more than what has been written, or the socket ignores it. -/
def AcksWritten (s : MySocket) (p : Segment) : Prop :=
  s.role = .server ∨ (p.ack.toNat : ℤ) ≤ s.sizep

instance : Decidable (s.AcksWritten p) := inferInstanceAs (Decidable (_ ∨ _))

namespace Window

lemma of_same (h : s.Window) (hst : SameStream s t) : t.Window :=
  ⟨hst.writep ▸ h.nonneg, by rw [hst.writep, hst.sizep]; exact h.writep_le, hst.sizep ▸ h.sizep_le⟩

lemma sized (h : s.Window) : s.Sized := by
  have := h.nonneg
  have := h.writep_le
  have := h.sizep_le
  have := bufSize_lt
  exact ⟨by omega, by omega⟩

lemma u32_sizep (h : s.Window) : (u32 s.sizep).toNat = s.sizep.toNat :=
  u32_toNat h.sized.nonneg (h.sized.fits.trans (by norm_num))

lemma mywrite (h : s.Window) (ht : s.mywrite buf = some t) : t.Window := by
  obtain ⟨-, hle, rfl⟩ := mywrite_eq_some.mp ht
  have := h.writep_le
  exact ⟨h.nonneg, by dsimp only; omega, hle⟩

lemma myread {len : ℤ} (h : s.Window) (ht : s.myread len = some (buf, t)) : t.Window := by
  obtain ⟨-, -, -, -, rfl⟩ := myread_eq_some.mp ht
  exact ⟨h.nonneg, h.writep_le, h.sizep_le⟩

lemma recvData (h : s.Window) (ht : s.recvData p tmp = some (t, out)) : t.Window := by
  have hfits := recvData_isSome.mp (Option.isSome_iff_exists.mpr ⟨_, ht⟩)
  rw [recvData_spec tmp hfits h.sized.nonneg h.sized.fits] at ht
  cases ht
  have hend : (pieceEnd p.piece : ℤ) ≤ bufSize := by exact_mod_cast hfits
  exact ⟨h.nonneg, h.writep_le.trans (le_max_left _ _), max_le h.sizep_le hend⟩

lemma sendsWell (h : s.Window) : s.SendsWell := by
  have hlt := bufSize_lt
  obtain ⟨h0, hw, hle⟩ := h
  have hseq : (u32 s.writep).toNat = s.writep.toNat := u32_toNat h0 (by omega)
  refine ⟨_, _, wrapWriteSend_eq h0 hw hle, ⟨?_, ?_, hle⟩, fun q hq => ?_⟩
  · dsimp only
    omega
  · dsimp only
    omega
  · obtain rfl := List.mem_singleton.mp hq
    constructor
    · simp only [sendTCPPacket, readAt_length]
      omega
    · simp only [sendTCPPacket, readAt_length, hseq]
      omega

lemma wrapWriteSend (h : s.Window) (ht : s.wrapWriteSend = some (t, out)) : t.Window := by
  obtain ⟨t', out', ht', hwindow, -⟩ := h.sendsWell
  rw [ht] at ht'
  cases ht'
  exact hwindow

/-- The new offset is the number of the ACK. -/
lemma acksWell (h : s.Window) (hack : isAck p.flag) (hp : s.AcksWritten p) (tmp : UInt8) :
    s.AcksWell p tmp := by
  have hlt := bufSize_lt
  have hle := h.sizep_le
  have hsize := h.u32_sizep
  unfold AcksWell
  rw [MySocket.recvTCPPacket, if_pos hack]
  by_cases hrole : s.role = .server
  · exact ⟨s, [], recvAck_server hrole, h, fun q hq => absurd hq List.not_mem_nil⟩
  have hp := hp.resolve_left hrole
  have hwritep : i32 p.ack = p.ack.toNat := i32_eq (by omega)
  have hwindow : ({ s with writep := i32 p.ack } : MySocket).Window :=
    ⟨by rw [hwritep]; exact Int.natCast_nonneg _, by rw [hwritep]; exact hp, hle⟩
  by_cases hall : u32 s.sizep ≤ p.ack
  · exact ⟨_, [], recvAck_all hrole hall, hwindow, fun q hq => absurd hq List.not_mem_nil⟩
  have hpart := UInt32.not_le.mp hall
  have hresent : s.resent p = min 1000 (s.sizep.toNat - p.ack.toNat) := by rw [resent, hsize]
  have hcopy : s.copyOut p.ack.toNat (s.resent p) =
      some (readAt s.databuf p.ack.toNat (s.resent p)) := by
    rw [UInt32.lt_iff_toNat_lt, hsize] at hpart
    exact copyOut_eq (by omega)
  have hrecv := recvAck_part hrole hpart
  rw [hcopy, Option.map_some] at hrecv
  refine ⟨_, _, hrecv, hwindow, fun q hq => ?_⟩
  obtain rfl := List.mem_singleton.mp hq
  rw [UInt32.lt_iff_toNat_lt, hsize] at hpart
  constructor
  · simp only [sendTCPPacket, readAt_length]
    omega
  · simp only [sendTCPPacket, readAt_length]
    omega

end Window

lemma writesWell_iff (h : s.Window) : s.WritesWell buf ↔ s.sizep + buf.length ≤ bufSize := by
  constructor
  · intro hw
    by_contra hlt
    have hrefused := hw.refused (not_le.mp hlt)
    exact hlt (mywrite_eq_some.mp hrefused).2.1
  · intro hle
    refine ⟨fun _ => ?_, fun hlt => absurd hle (not_le.mpr hlt)⟩
    have ht := mywrite_eq_some.mpr ⟨h.sized.nonneg, hle, rfl⟩
    exact ⟨_, ht, h.mywrite ht⟩

/-- An ACK of more than what has been written moves the offset of what has been sent beyond it, or
makes it negative. -/
lemma acksWell_iff (h : s.Window) (hack : isAck p.flag) : s.AcksWell p tmp ↔ s.AcksWritten p := by
  refine ⟨?_, fun hp => h.acksWell hack hp tmp⟩
  rintro ⟨t, out, ht, hwindow, -⟩
  rw [MySocket.recvTCPPacket, if_pos hack] at ht
  obtain ⟨hrole, -⟩ | ⟨-, rfl, -⟩ := recvAck_eq_some ht
  · exact Or.inl hrole
  · have h0 : 0 ≤ i32 p.ack := hwindow.nonneg
    have hle : i32 p.ack ≤ s.sizep := hwindow.writep_le
    exact Or.inr (i32_of_nonneg h0 ▸ hle)

end MySocket

namespace Streams

variable {v w : Streams} {e : StreamsEvent} {es : List StreamsEvent}

/-- An ACK that the step processes acknowledges no more than what has been written. -/
def acksWritten (v : Streams) (e : StreamsEvent) : Bool :=
  (v.processing e).all (fun a =>
    decide (a.1.Transfers a.2 → isAck a.2.flag → a.1.AcksWritten a.2))

lemma window_next (hc : v.acksWritten e) (hv : ∀ fd s, v.sockets.find? fd = some s → s.Window)
    (hw : v.next e = some w) : ∀ fd s, w.sockets.find? fd = some s → s.Window := by
  refine forall_next ?_ (fun s t hst hs => hs.of_same hst) ?_
    (fun _ _ s buf t _ _ _ _ ht hs => hs.myread ht) (fun s buf t ht hs => hs.mywrite ht)
    (fun s t out ht hs => hs.wrapWriteSend ht) hv hw
  · exact fun address b => ⟨le_rfl, le_rfl, Int.natCast_nonneg bufSize⟩
  · intro s p tmp t out hprocessing hs htransfers ht
    have hlocated := hs.of_same (s.sameStream_located p)
    by_cases hack : isAck p.flag
    · rw [acksWritten, hprocessing, Option.all_some, decide_eq_true_eq] at hc
      have hp : (s.located p).AcksWritten p := by
        have := hc htransfers hack
        unfold MySocket.AcksWritten at this ⊢
        rwa [s.located_role, s.located_sizep]
      obtain ⟨t', out', ht', hwindow, -⟩ := hlocated.acksWell hack hp tmp
      rw [ht] at ht'
      cases ht'
      exact hwindow
    · rw [MySocket.recvTCPPacket, if_neg hack] at ht
      exact hlocated.recvData ht

/-- In every run in which no ACK goes beyond what has been written, the window of every socket is
kept, and what the section of a write sends is in it. A write is refused or kept in the window
exactly when it fits, and an ACK keeps the window exactly when it does not go beyond what has been
written. -/
theorem send_window
    (h : run (restrict (fun v e => v.acksWritten e = true) next) init es = some v) :
    ∀ fd s, v.sockets.find? fd = some s → s.Window ∧ s.SendsWell ∧
      (∀ buf : List UInt8, s.WritesWell buf ↔ s.sizep + buf.length ≤ bufSize) ∧
      ∀ p tmp, isAck p.flag → (s.AcksWell p tmp ↔ s.AcksWritten p) := by
  have hinv : ∀ fd s, v.sockets.find? fd = some s → s.Window := by
    refine run_invariant (I := fun v => ∀ fd s, v.sockets.find? fd = some s → s.Window) ?_
      (fun _ _ hs => (nomatch hs)) h
    intro v e w hv hw
    obtain ⟨hc, hw⟩ := restrict_eq_some.mp hw
    exact window_next hc hv hw
  intro fd s hs
  have hwindow := hinv fd s hs
  exact ⟨hwindow, hwindow.sendsWell, fun buf => MySocket.writesWell_iff hwindow,
    fun p tmp hack => MySocket.acksWell_iff hwindow hack⟩

/-- A client connects, writes three bytes and gets an ACK of `ack` bytes. -/
def acknowledged (ack : UInt32) : List StreamsEvent :=
  [.host Host.socketCall, .host (.connect 100 ⟨1, 2, 3, 4⟩ 0)] ++
    (Host.arrival ⟨⟨2, 1, 4, 3⟩, 0, 1, setAck (setSyn 0), [0]⟩).map .host ++
    [.write 100 [7, 8, 9], .writeSend 0] ++
    (Host.arrival ⟨⟨2, 1, 4, 3⟩, 0, ack, setAck 0, [0]⟩).map .host

theorem send_window_acknowledged : ∃ v s, run next init (acknowledged 2) = some v ∧
    v.sockets.find? 100 = some s ∧ s.writep = 2 ∧ s.sizep = 3 ∧ s.Window ∧ s.SendsWell ∧
    s.WritesWell [1, 2] := by
  have hoffsets : (run (restrict (fun v e => v.acksWritten e = true) next) init (acknowledged 2)).map
      (fun v => (v.sockets.find? 100).map (fun s => (s.writep, s.sizep))) = some (some (2, 3)) := by
    decide +kernel
  obtain ⟨v, s, hv, hs, hoffsets⟩ := exists_socket hoffsets
  obtain ⟨hwritep, hsizep⟩ := Prod.mk.inj hoffsets
  obtain ⟨hwindow, hsends, hwrites, -⟩ := send_window hv 100 s hs
  exact ⟨v, s, run_of_restrict hv, hs, hwritep, hsizep, hwindow, hsends,
    (hwrites _).mpr (by rw [hsizep]; decide)⟩

/-- An ACK of five bytes moves `writep` beyond the three that have been written, and a write that is
longer than the buffer is not refused. -/
theorem send_window_fails :
    (∃ v s, run next init (acknowledged 5) = some v ∧ v.sockets.find? 100 = some s ∧
      s.writep = 5 ∧ s.sizep = 3 ∧ ¬s.Window) ∧
    ∃ v s, run next init [.host Host.socketCall] = some v ∧ v.sockets.find? 100 = some s ∧
      s.Window ∧ ¬s.WritesWell (List.replicate (bufSize + 1) 0) := by
  have hforged : (run next init (acknowledged 5)).map
      (fun v => (v.sockets.find? 100).map (fun s => (s.writep, s.sizep))) = some (some (5, 3)) := by
    decide +kernel
  have hnew : (run next init [.host Host.socketCall]).map
      (fun v => (v.sockets.find? 100).map (fun s => (s.writep, s.sizep))) = some (some (0, 0)) := by
    decide +kernel
  constructor
  · obtain ⟨v, s, hv, hs, hforged⟩ := exists_socket hforged
    obtain ⟨hwritep, hsizep⟩ := Prod.mk.inj hforged
    refine ⟨v, s, hv, hs, hwritep, hsizep, fun hwindow => ?_⟩
    have hle := hwindow.writep_le
    rw [hwritep, hsizep] at hle
    exact absurd hle (by decide)
  · obtain ⟨v, s, hv, hs, hnew⟩ := exists_socket hnew
    obtain ⟨hwritep, hsizep⟩ := Prod.mk.inj hnew
    have hwindow : s.Window :=
      ⟨hwritep.ge, by rw [hwritep, hsizep], by rw [hsizep]; exact Int.natCast_nonneg bufSize⟩
    refine ⟨v, s, hv, hs, hwindow, fun hwrites => ?_⟩
    have hfits := (MySocket.writesWell_iff hwindow).mp hwrites
    rw [hsizep, List.length_replicate] at hfits
    omega

end Streams

end ITCP
