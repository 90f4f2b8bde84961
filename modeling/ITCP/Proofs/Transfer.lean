import ITCP.Proofs.Sections

/-!
# One-way transfer over a connection

When only one end writes and only the other one reads, the two sockets follow the numbers of
`Flow`, and the bytes they exchange are pieces of what was written.
-/

namespace ITCP
open Lib

def flow (W R : Endpoint) : Flow where
  total := W.written.length
  writep := W.sock.writep.toNat
  size := R.sock.sizep.toNat
  segs := R.inbox.map Segment.piece
  acks := W.inbox.map (fun p => p.ack.toNat)
  arrived := R.arrived.map Segment.piece
  pc := W.pc

/-- The state of a transfer from `W` to `R`, apart from the bounds of `Flow.Sound`. -/
structure Transfer (W R : Endpoint) : Prop where
  writer_estab : W.sock.tcb.status = .estab
  reader_estab : R.sock.tcb.status = .estab
  address : R.sock.address = W.sock.address.mirror
  reader_pc : R.pc = .idle
  sizep_eq : W.sock.sizep = W.written.length
  written_le : W.written.length ≤ bufSize
  writep_nonneg : 0 ≤ W.sock.writep
  size_nonneg : 0 ≤ R.sock.sizep
  holds : HoldsPrefix W.sock.databuf W.written W.written.length
  segs : ∀ p ∈ R.inbox, IsPiece W.sock.address W.written p
  acks : ∀ p ∈ W.inbox, IsAcknowledgement W.sock.address p
  arrived : ∀ p ∈ R.arrived, IsPiece W.sock.address W.written p
  sent : ∀ q ∈ R.sent, IsAcknowledgement W.sock.address q ∧
    ∃ p ∈ R.arrived, q.ack.toNat = pieceEnd p.piece
  /-- The bytes that have arrived are where they belong. -/
  content : ∀ i, Covers (R.arrived.map Segment.piece) i → W.written[i]? = some (R.sock.databuf i)

def listens (W : Endpoint) : Bool := W.sock.role ≠ .server

def writerEvent : LocalEvent → FlowEvent
  | .mywrite buf => .write buf.length
  | .send => .send
  | .writeReturn => .writeReturn
  | .read _ => .skip
  | .process i _ => .ack i
  | .drop i => .dropAck i
  | .duplicate i => .repeatAck i

def readerEvent : LocalEvent → FlowEvent
  | .process i _ => .data i
  | .drop i => .dropData i
  | .duplicate i => .repeatData i
  | _ => .skip

variable {W R W' R' : Endpoint} {out : List Segment}

lemma length_of_getElem?_eq_some {α : Type*} {l : List α} {i : ℕ} {a : α} (h : l[i]? = some a) :
    i < l.length := (List.getElem?_eq_some_iff.mp h).1

lemma writeReturn_cases (hs : W.step .writeReturn = some (W', out)) :
    (W.pc = .spin ∧ W.sock.writep = W.sock.sizep) ∧ out = [] ∧ W' = { W with pc := .idle } := by
  simp only [Endpoint.step] at hs
  split_ifs at hs with hpc
  cases hs
  exact ⟨hpc, rfl, rfl⟩

lemma drop_cases {i : ℕ} (hs : W.step (.drop i) = some (W', out)) :
    out = [] ∧ W' = { W with inbox := W.inbox.eraseIdx i } := by
  simp only [Endpoint.step] at hs
  split_ifs at hs
  cases hs
  exact ⟨rfl, rfl⟩

lemma duplicate_cases {i : ℕ} (hs : W.step (.duplicate i) = some (W', out)) :
    ∃ p, W.inbox[i]? = some p ∧ out = [] ∧ W' = { W with inbox := W.inbox ++ [p] } := by
  obtain ⟨p, hp, hs⟩ := Option.bind_eq_some_iff.mp hs
  cases hs
  exact ⟨p, hp, rfl, rfl⟩

/-! ### The writing end -/

lemma mywrite_cases {buf : List UInt8} (h : Transfer W R)
    (hs : W.step (.mywrite buf) = some (W', out)) :
    W.pc = .idle ∧ W.written.length + buf.length ≤ bufSize ∧ out = [] ∧
      W' = { W with
        sock := { W.sock with
          databuf := writeAt W.sock.databuf W.written.length buf
          sizep := W.sock.sizep + buf.length }
        pc := .wrote
        written := W.written ++ buf } := by
  simp only [Endpoint.step] at hs
  split_ifs at hs with hpc
  · cases hs
  · obtain ⟨sock, hsock, hs⟩ := Option.bind_eq_some_iff.mp hs
    obtain ⟨-, hle, rfl⟩ := mywrite_eq_some.mp hsock
    cases hs
    have hsize := h.sizep_eq
    exact ⟨not_not.mp hpc, by omega, rfl, by rw [hsize, Int.toNat_natCast]⟩

lemma send_cases (h : Transfer W R) (hf : (flow W R).Sound)
    (hs : W.step .send = some (W', out)) :
    ∃ q, W.pc = .wrote ∧ out = [q] ∧ IsPiece W.sock.address W.written q ∧
      q.piece = (W.sock.writep.toNat, (flow W R).pieceLen W.sock.writep.toNat) ∧
      W' = { W with
        sock := { W.sock with
          writep := W.sock.writep + ((flow W R).pieceLen W.sock.writep.toNat : ℕ) }
        pc := .spin
        sent := W.sent ++ [q] } := by
  have hw : W.sock.writep ≤ W.sock.sizep := by
    have hle := hf.writep_le
    have hsize := h.sizep_eq
    simp only [flow] at hle
    omega
  obtain ⟨q, hq, hpiece, hlen⟩ :=
    wrapWriteSend_spec h.sizep_eq h.written_le h.writep_nonneg hw h.holds
  simp only [Endpoint.step, hq] at hs
  split_ifs at hs with hpc
  · cases hs
  · cases hs
    exact ⟨q, not_not.mp hpc, rfl, hpiece, hlen, rfl⟩

lemma deliver_ack (h : Transfer W R) {p : Segment} (tmp : UInt8) (hp : p ∈ W.inbox) :
    Endpoint.deliver W.sock p tmp = W.sock.recvAck p := by
  have hack := h.acks p hp
  rw [Endpoint.deliver, if_pos (by rw [hack.info, Tuple4.mirror_mirror]),
    readIPPacket_ack tmp h.writer_estab hack.flag (Segment.fits_of_short hack.short)]

lemma processAck_cases (h : Transfer W R) (hf : (flow W R).Sound) {i : ℕ} {tmp : UInt8}
    (hs : W.step (.process i tmp) = some (W', out)) :
    ∃ p writep, W.inbox[i]? = some p ∧ (∀ q ∈ out, IsPiece W.sock.address W.written q) ∧
      W' = { W with
        sock := { W.sock with writep := writep }
        inbox := W.inbox.eraseIdx i
        sent := W.sent ++ out
        arrived := W.arrived ++ [p] } ∧
      (listens W = true → writep = p.ack.toNat ∧ out.map Segment.piece =
        if p.ack.toNat < W.written.length then [(p.ack.toNat, (flow W R).pieceLen p.ack.toNat)]
        else []) ∧
      (listens W = false → writep = W.sock.writep ∧ out = []) := by
  simp only [Endpoint.step] at hs
  obtain ⟨p, hp, hs⟩ := Option.bind_eq_some_iff.mp hs
  have hmem : p ∈ W.inbox := List.mem_of_getElem? hp
  rw [deliver_ack h tmp hmem] at hs
  by_cases hrole : W.sock.role = .server
  · rw [MySocket.recvAck_server hrole] at hs
    cases hs
    exact ⟨p, W.sock.writep, hp, by simp, rfl, by simp [listens, hrole], fun _ => ⟨rfl, rfl⟩⟩
  · have hack : p.ack.toNat ≤ W.written.length := by
      have hle := hf.acks_le p.ack.toNat (List.mem_map_of_mem (f := fun p => p.ack.toNat) hmem)
      exact hle.trans hf.size_le
    obtain ⟨out', hout, hpiece, hmap⟩ :=
      recvAck_spec hrole h.sizep_eq h.written_le hack h.holds (h.acks p hmem)
    rw [hout] at hs
    cases hs
    exact ⟨p, _, hp, hpiece, rfl, fun _ => ⟨rfl, hmap⟩, by simp [listens, hrole]⟩

/-! ### The reading end -/

lemma read_cases {nbyte : ℕ} (hs : R.step (.read nbyte) = some (R', out)) :
    ∃ len : ℕ, 0 ≤ R.sock.readp ∧ R.sock.readp + len ≤ R.sock.sizep ∧ out = [] ∧
      R' = { R with
        sock := { R.sock with readp := R.sock.readp + len }
        returned := R.returned ++ readAt R.sock.databuf R.sock.readp.toNat len } := by
  simp only [Endpoint.step, Endpoint.wrapRead] at hs
  obtain ⟨⟨buf, sock⟩, hread, hs⟩ := Option.bind_eq_some_iff.mp hs
  split_ifs at hread with hready
  obtain ⟨h0, hlen, -, rfl, rfl⟩ := myread_eq_some.mp hread
  cases hs
  have hle := hready.2
  simp only [MySocket.readReady, not_lt] at hle
  have hnat : ((i32 (UInt32.ofNat nbyte)).toNat : ℤ) = i32 (UInt32.ofNat nbyte) :=
    Int.toNat_of_nonneg hlen
  exact ⟨(i32 (UInt32.ofNat nbyte)).toNat, h0, by rwa [hnat], rfl, by rw [hnat]⟩

lemma deliver_piece (h : Transfer W R) {p : Segment} (tmp : UInt8) (hp : p ∈ R.inbox) :
    Endpoint.deliver R.sock p tmp = R.sock.recvData p tmp := by
  have hpiece := h.segs p hp
  rw [Endpoint.deliver, if_pos (by rw [hpiece.info, h.address]),
    readIPPacket_piece tmp h.reader_estab hpiece.flag (Segment.fits_of_short hpiece.short)]

lemma deliver_piece_eq (h : Transfer W R) (hf : (flow W R).Sound) {p : Segment} (tmp : UInt8)
    (hp : p ∈ R.inbox) :
    ∃ q, Endpoint.deliver R.sock p tmp = some ({ R.sock with
        databuf := writeAt R.sock.databuf p.seq.toNat p.payload
        sizep := max R.sock.sizep (pieceEnd p.piece) }, [q]) ∧
      IsAcknowledgement W.sock.address q ∧ q.ack.toNat = pieceEnd p.piece := by
  have hpiece := h.segs p hp
  have hle := h.written_le
  have hend : pieceEnd p.piece ≤ bufSize := hpiece.end_le.trans hle
  have hsize : R.sock.sizep < 2 ^ 31 := by
    have hsz := hf.size_le
    have hlt := bufSize_lt
    simp only [flow] at hsz
    omega
  rw [deliver_piece h tmp hp, recvData_spec tmp hend h.size_nonneg hsize]
  refine ⟨_, rfl, ⟨rfl, ?_, by simp [sendTCPPacket]⟩, seq_add_toNat hend⟩
  rw [sendTCPPacket, hpiece.info]

lemma processPiece_cases (h : Transfer W R) (hf : (flow W R).Sound) {i : ℕ} {tmp : UInt8}
    (hs : R.step (.process i tmp) = some (R', out)) :
    ∃ p q, R.inbox[i]? = some p ∧ out = [q] ∧ IsAcknowledgement W.sock.address q ∧
      q.ack.toNat = pieceEnd p.piece ∧
      R' = { R with
        sock := { R.sock with
          databuf := writeAt R.sock.databuf p.seq.toNat p.payload
          sizep := max R.sock.sizep (pieceEnd p.piece) }
        inbox := R.inbox.eraseIdx i
        sent := R.sent ++ [q]
        arrived := R.arrived ++ [p] } := by
  simp only [Endpoint.step] at hs
  obtain ⟨p, hp, hs⟩ := Option.bind_eq_some_iff.mp hs
  obtain ⟨q, hq, hack, hend⟩ := deliver_piece_eq h hf tmp (List.mem_of_getElem? hp)
  rw [hq] at hs
  cases hs
  exact ⟨p, q, hp, rfl, hack, hend, rfl⟩

/-! ### Each step is a step of the numbers -/

lemma Transfer.forget_writer (h : Transfer W R) {acks : List Segment}
    (hacks : ∀ p ∈ acks, p ∈ W.inbox) : Transfer { W with inbox := acks } R :=
  { h with acks := fun p hp => h.acks p (hacks p hp) }

lemma Transfer.forget_reader (h : Transfer W R) {segs : List Segment}
    (hsegs : ∀ p ∈ segs, p ∈ R.inbox) : Transfer W { R with inbox := segs } :=
  { h with segs := fun p hp => h.segs p (hsegs p hp) }

lemma transfer_mywrite {buf : List UInt8} (h : Transfer W R)
    (hs : W.step (.mywrite buf) = some (W', out)) :
    Transfer W' (R.receive out) ∧
      (flow W R).step (listens W) (.write buf.length) = some (flow W' (R.receive out)) := by
  obtain ⟨hpc, hle, rfl, rfl⟩ := mywrite_cases h hs
  constructor
  · rw [Endpoint.receive_nil]
    exact { h with
      sizep_eq := by simp [h.sizep_eq]
      written_le := by simpa using hle
      holds := h.holds.writeAt_end buf
      segs := fun p hp => (h.segs p hp).append buf
      arrived := fun p hp => (h.arrived p hp).append buf
      content := fun i hi => by
        have hin := h.content i hi
        rwa [List.getElem?_append_left (length_of_getElem?_eq_some hin)] }
  · simp [flow, Flow.step, hpc]

lemma transfer_send (h : Transfer W R) (hf : (flow W R).Sound)
    (hs : W.step .send = some (W', out)) :
    Transfer W' (R.receive out) ∧
      (flow W R).step (listens W) .send = some (flow W' (R.receive out)) := by
  obtain ⟨q, hpc, rfl, hq, hpiece, rfl⟩ := send_cases h hf hs
  have h0 := h.writep_nonneg
  constructor
  · exact { h with
      writep_nonneg := by dsimp only; omega
      segs := List.forall_mem_append.mpr ⟨h.segs, List.forall_mem_singleton.mpr hq⟩ }
  · have hnat : (W.sock.writep + ((flow W R).pieceLen W.sock.writep.toNat : ℕ)).toNat =
        W.sock.writep.toNat + (flow W R).pieceLen W.sock.writep.toNat := by omega
    rw [Flow.step, if_pos (by exact hpc)]
    simp only [flow, Endpoint.receive, List.map_append, List.map_singleton, hpiece] at hnat ⊢
    rw [hnat]

lemma transfer_writeReturn (h : Transfer W R) (hs : W.step .writeReturn = some (W', out)) :
    Transfer W' (R.receive out) ∧
      (flow W R).step (listens W) .writeReturn = some (flow W' (R.receive out)) := by
  obtain ⟨hpc, rfl, rfl⟩ := writeReturn_cases hs
  rw [Endpoint.receive_nil]
  refine ⟨{ h with }, ?_⟩
  have hw : W.sock.writep.toNat = W.written.length := by
    rw [hpc.2, h.sizep_eq, Int.toNat_natCast]
  rw [Flow.step, if_pos ⟨hpc.1, hw⟩]
  rfl

lemma transfer_ack {i : ℕ} {tmp : UInt8} (h : Transfer W R) (hf : (flow W R).Sound)
    (hs : W.step (.process i tmp) = some (W', out)) :
    Transfer W' (R.receive out) ∧
      (flow W R).step (listens W) (.ack i) = some (flow W' (R.receive out)) := by
  obtain ⟨p, writep, hp, hout, rfl, hlisten, hdeaf⟩ := processAck_cases h hf hs
  have hacks : ∀ q ∈ W.inbox.eraseIdx i, q ∈ W.inbox := fun q => List.mem_of_mem_eraseIdx
  have hget : (flow W R).acks[i]? = some p.ack.toNat := by simp [flow, hp]
  rw [Flow.step, hget, Option.map_some]
  cases hl : listens W with
  | true =>
    obtain ⟨rfl, hmap⟩ := hlisten hl
    constructor
    · exact { h.forget_writer hacks with
        writep_nonneg := Int.natCast_nonneg _
        segs := List.forall_mem_append.mpr ⟨h.segs, hout⟩ }
    · by_cases hlt : p.ack.toNat < W.written.length
      · simp [Flow.recvAck, flow, Endpoint.receive, List.eraseIdx_map, hmap, hlt, Flow.pieceLen]
      · simp [Flow.recvAck, flow, Endpoint.receive, List.eraseIdx_map, hmap, hlt]
  | false =>
    obtain ⟨rfl, rfl⟩ := hdeaf hl
    rw [Endpoint.receive_nil]
    refine ⟨{ h.forget_writer hacks with }, ?_⟩
    simp [Flow.recvAck, flow, List.eraseIdx_map]

lemma transfer_data {i : ℕ} {tmp : UInt8} (h : Transfer W R) (hf : (flow W R).Sound)
    (hs : R.step (.process i tmp) = some (R', out)) :
    Transfer (W.receive out) R' ∧
      (flow W R).step (listens W) (.data i) = some (flow (W.receive out) R') := by
  obtain ⟨p, q, hp, rfl, hq, hend, rfl⟩ := processPiece_cases h hf hs
  have hpiece := h.segs p (List.mem_of_getElem? hp)
  have hsegs : ∀ q ∈ R.inbox.eraseIdx i, q ∈ R.inbox := fun q => List.mem_of_mem_eraseIdx
  have hsize := h.size_nonneg
  constructor
  · exact { h.forget_reader hsegs with
      size_nonneg := by dsimp only; omega
      acks := List.forall_mem_append.mpr ⟨h.acks, List.forall_mem_singleton.mpr hq⟩
      arrived := List.forall_mem_append.mpr ⟨h.arrived, List.forall_mem_singleton.mpr hpiece⟩
      sent := fun r hr => by
        rcases List.mem_append.mp hr with hr | hr
        · obtain ⟨hack, p', hp', hend'⟩ := h.sent r hr
          exact ⟨hack, p', List.mem_append_left _ hp', hend'⟩
        · rw [List.mem_singleton.mp hr]
          exact ⟨hq, p, List.mem_append_right _ (List.mem_singleton_self p), hend⟩
      content := fun j hj => by
        have hpay := hpiece.payload
        dsimp only
        rw [hpay]
        by_cases hin : p.piece.1 ≤ j ∧ j < p.piece.1 + p.piece.2
        · exact writeAt_slice_of_mem hpiece.end_le hin.1 hin.2
        · rw [writeAt_of_not_mem _ _ (by rwa [slice_length hpiece.end_le])]
          refine h.content j ?_
          rw [List.map_append, Flow.covers_append] at hj
          refine hj.resolve_right ?_
          rintro ⟨d, hd, hlo, hhi⟩
          rw [List.map_singleton, List.mem_singleton] at hd
          rw [hd] at hlo hhi
          exact hin ⟨hlo, hhi⟩ }
  · have hnat : (max R.sock.sizep (pieceEnd p.piece : ℤ)).toNat =
        max R.sock.sizep.toNat (pieceEnd p.piece) := by omega
    have hget : (flow W R).segs[i]? = some p.piece := by simp [flow, hp]
    rw [Flow.step, hget, Option.map_some]
    simp [Flow.recvData, flow, Endpoint.receive, List.eraseIdx_map, hnat, hend]

lemma transfer_read {nbyte : ℕ} (h : Transfer W R) (hs : R.step (.read nbyte) = some (R', out)) :
    Transfer (W.receive out) R' ∧
      (flow W R).step (listens W) .skip = some (flow (W.receive out) R') := by
  obtain ⟨len, -, -, rfl, rfl⟩ := read_cases hs
  rw [Endpoint.receive_nil]
  exact ⟨{ h with }, rfl⟩

theorem writer_step {e : LocalEvent} (h : Transfer W R) (hf : (flow W R).Sound)
    (he : ∀ n, e ≠ .read n) (hs : W.step e = some (W', out)) :
    Transfer W' (R.receive out) ∧
      (flow W R).step (listens W) (writerEvent e) = some (flow W' (R.receive out)) := by
  cases e with
  | mywrite buf => exact transfer_mywrite h hs
  | send => exact transfer_send h hf hs
  | writeReturn => exact transfer_writeReturn h hs
  | read n => exact absurd rfl (he n)
  | process i tmp => exact transfer_ack h hf hs
  | drop i =>
    obtain ⟨rfl, rfl⟩ := drop_cases hs
    rw [Endpoint.receive_nil]
    refine ⟨h.forget_writer fun q => List.mem_of_mem_eraseIdx, ?_⟩
    simp [writerEvent, Flow.step, flow, List.eraseIdx_map]
  | duplicate i =>
    obtain ⟨p, hp, rfl, rfl⟩ := duplicate_cases hs
    rw [Endpoint.receive_nil]
    have hack := h.acks p (List.mem_of_getElem? hp)
    have hacks := List.forall_mem_append.mpr ⟨h.acks, List.forall_mem_singleton.mpr hack⟩
    refine ⟨{ h with acks := hacks }, ?_⟩
    simp [writerEvent, Flow.step, flow, hp]

theorem reader_step {e : LocalEvent} (h : Transfer W R) (hf : (flow W R).Sound)
    (he : ∀ buf, e ≠ .mywrite buf) (hs : R.step e = some (R', out)) :
    Transfer (W.receive out) R' ∧
      (flow W R).step (listens W) (readerEvent e) = some (flow (W.receive out) R') := by
  cases e with
  | mywrite buf => exact absurd rfl (he buf)
  | send => simp [Endpoint.step, h.reader_pc] at hs
  | writeReturn => simp [Endpoint.step, h.reader_pc] at hs
  | read n => exact transfer_read h hs
  | process i tmp => exact transfer_data h hf hs
  | drop i =>
    obtain ⟨rfl, rfl⟩ := drop_cases hs
    rw [Endpoint.receive_nil]
    refine ⟨h.forget_reader fun q => List.mem_of_mem_eraseIdx, ?_⟩
    simp [readerEvent, Flow.step, flow, List.eraseIdx_map]
  | duplicate i =>
    obtain ⟨p, hp, rfl, rfl⟩ := duplicate_cases hs
    rw [Endpoint.receive_nil]
    have hpiece := h.segs p (List.mem_of_getElem? hp)
    have hsegs := List.forall_mem_append.mpr ⟨h.segs, List.forall_mem_singleton.mpr hpiece⟩
    refine ⟨{ h with segs := hsegs }, ?_⟩
    simp [readerEvent, Flow.step, flow, hp]

/-! ### Delivery to the reading thread -/

/-- Reads have returned the stream up to `readp`. -/
structure Delivered (W R : Endpoint) : Prop where
  readp_nonneg : 0 ≤ R.sock.readp
  readp_le : R.sock.readp ≤ R.sock.sizep
  returned : R.returned = W.written.take R.sock.readp.toNat

lemma Delivered.isPrefix (h : Delivered W R) : R.returned <+: W.written := by
  rw [h.returned]
  exact List.take_prefix _ _

/-- Without a gap, the buffer holds the stream up to `sizep`. -/
lemma Transfer.holdsPrefix (h : Transfer W R) (hg : (flow W R).Gapless) :
    HoldsPrefix R.sock.databuf W.written R.sock.sizep.toNat :=
  fun i hi => h.content i (hg i hi)

lemma Transfer.readAt_eq (h : Transfer W R) (hf : (flow W R).Sound) (hg : (flow W R).Gapless) :
    readAt R.sock.databuf 0 R.sock.sizep.toNat = W.written.take R.sock.sizep.toNat := by
  have hle : R.sock.sizep.toNat ≤ W.written.length := hf.size_le
  rw [(h.holdsPrefix hg).readAt_eq (by omega), slice, List.drop_zero]

theorem delivered_writer_step {e : LocalEvent} (h : Transfer W R) (hf : (flow W R).Sound)
    (hd : Delivered W R) (he : ∀ n, e ≠ .read n) (hs : W.step e = some (W', out)) :
    Delivered W' (R.receive out) := by
  cases e with
  | mywrite buf =>
    obtain ⟨-, -, rfl, rfl⟩ := mywrite_cases h hs
    have hle : R.sock.sizep.toNat ≤ W.written.length := hf.size_le
    have hr := hd.readp_le
    refine ⟨hd.readp_nonneg, hd.readp_le, ?_⟩
    have htake : (W.written ++ buf).take R.sock.readp.toNat = W.written.take R.sock.readp.toNat :=
      List.take_append_of_le_length (by omega)
    simpa [htake] using hd.returned
  | send =>
    obtain ⟨q, -, rfl, -, -, rfl⟩ := send_cases h hf hs
    exact { hd with }
  | writeReturn =>
    obtain ⟨-, rfl, rfl⟩ := writeReturn_cases hs
    exact { hd with }
  | read n => exact absurd rfl (he n)
  | process i tmp =>
    obtain ⟨p, writep, -, -, rfl, -, -⟩ := processAck_cases h hf hs
    exact { hd with }
  | drop i =>
    obtain ⟨rfl, rfl⟩ := drop_cases hs
    exact { hd with }
  | duplicate i =>
    obtain ⟨p, -, rfl, rfl⟩ := duplicate_cases hs
    exact { hd with }

theorem delivered_reader_step {e : LocalEvent} (h : Transfer W R) (hf : (flow W R).Sound)
    (hg : (flow W R).Gapless) (hd : Delivered W R) (he : ∀ buf, e ≠ .mywrite buf)
    (hs : R.step e = some (R', out)) : Delivered (W.receive out) R' := by
  have h0 := hd.readp_nonneg
  have hr := hd.readp_le
  cases e with
  | mywrite buf => exact absurd rfl (he buf)
  | send => simp [Endpoint.step, h.reader_pc] at hs
  | writeReturn => simp [Endpoint.step, h.reader_pc] at hs
  | read n =>
    obtain ⟨len, -, hle, rfl, rfl⟩ := read_cases hs
    have hbytes : readAt R.sock.databuf R.sock.readp.toNat len =
        slice W.written R.sock.readp.toNat len :=
      (h.holdsPrefix hg).readAt_eq (by omega)
    have hnat : (R.sock.readp + len).toNat = R.sock.readp.toNat + len := by omega
    refine ⟨by dsimp only; omega, hle, ?_⟩
    rw [hd.returned, hbytes, take_append_slice, Endpoint.receive_nil, hnat]
  | process i tmp =>
    obtain ⟨p, q, -, rfl, -, -, rfl⟩ := processPiece_cases h hf hs
    exact ⟨h0, by dsimp only; omega, hd.returned⟩
  | drop i =>
    obtain ⟨rfl, rfl⟩ := drop_cases hs
    exact { hd with }
  | duplicate i =>
    obtain ⟨p, -, rfl, rfl⟩ := duplicate_cases hs
    exact { hd with }

end ITCP
