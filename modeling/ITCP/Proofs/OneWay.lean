import ITCP.Model.Streams
import ITCP.Proofs.Reuse
import ITCP.Proofs.Transfer

/-!
# Runs of a one-way transfer

The guarantees of a connection on which only one end writes and only the other one reads, over
every run, for networks that deliver in order, that only reorder, and that also lose and repeat.
-/

namespace ITCP.Connection
open Lib

variable {w : Side} {b : Bool} {c d : Connection} {e : ConnEvent}

/-- The numbers of the transfer from `w` to the other end. -/
def flow (c : Connection) (w : Side) : Flow := ITCP.flow (c w) (c w.other)

def flowEvent (w : Side) (e : ConnEvent) : FlowEvent :=
  if e.1 = w then writerEvent e.2 else readerEvent e.2

/-- A transfer from `w` is going on. -/
structure Transfers (w : Side) (b : Bool) (c : Connection) : Prop where
  transfer : Transfer (c w) (c w.other)
  sound : (c.flow w).Sound
  listens : listens (c w) = b

lemma listens_step {W R W' : Endpoint} {e : LocalEvent} {out : List Segment} (h : Transfer W R)
    (hf : (ITCP.flow W R).Sound) (hs : W.step e = some (W', out)) :
    ITCP.listens W' = ITCP.listens W := by
  cases e with
  | mywrite buf => obtain ⟨-, -, -, rfl⟩ := mywrite_cases h hs; rfl
  | send => obtain ⟨q, -, -, -, -, rfl⟩ := send_cases h hf hs; rfl
  | writeReturn => obtain ⟨-, -, rfl⟩ := writeReturn_cases hs; rfl
  | read n => obtain ⟨len, -, -, -, rfl⟩ := read_cases hs; rfl
  | process i tmp => obtain ⟨p, writep, -, -, rfl, -⟩ := processAck_cases h hf hs; rfl
  | drop i => obtain ⟨-, rfl⟩ := drop_cases hs; rfl
  | duplicate i => obtain ⟨p, -, -, rfl⟩ := duplicate_cases hs; rfl

/-- A step of the connection follows a step of the numbers, and keeps what relates the two. -/
theorem transfers_step (he : OneWay w e) (h : Transfers w b c) (hs : c.step e = some d) :
    Transfers w b d ∧ (c.flow w).step b (flowEvent w e) = some (d.flow w) := by
  obtain ⟨htr, hf, rfl⟩ := h
  obtain ⟨x, e⟩ := e
  obtain ⟨out, hx, hother⟩ := step_eq_some.mp hs
  unfold flowEvent
  by_cases hw : x = w
  · subst hw
    have hread : ∀ n, e ≠ .read n := by
      rintro n rfl
      exact Side.ne_other x he
    obtain ⟨htr', hflow⟩ := writer_step htr hf hread hx
    rw [← hother] at htr' hflow
    rw [if_pos rfl]
    exact ⟨⟨htr', Flow.sound_step _ hf hflow, listens_step htr hf hx⟩, hflow⟩
  · obtain rfl := Side.eq_other_of_ne hw
    have hwrite : ∀ buf, e ≠ .mywrite buf := by
      rintro buf rfl
      exact hw he
    obtain ⟨htr', hflow⟩ := reader_step htr hf hwrite hx
    rw [Side.other_other] at hother
    rw [← hother] at htr' hflow
    rw [if_neg hw]
    refine ⟨⟨htr', Flow.sound_step _ hf hflow, ?_⟩, hflow⟩
    rw [hother]
    rfl

theorem delivered_step (he : OneWay w e) (h : Transfers w b c) (hg : (c.flow w).Gapless)
    (hd : Delivered (c w) (c w.other)) (hs : c.step e = some d) :
    Delivered (d w) (d w.other) := by
  obtain ⟨x, e⟩ := e
  obtain ⟨out, hx, hother⟩ := step_eq_some.mp hs
  by_cases hw : x = w
  · subst hw
    rw [hother]
    refine delivered_writer_step h.transfer h.sound hd ?_ hx
    rintro n rfl
    exact Side.ne_other x he
  · obtain rfl := Side.eq_other_of_ne hw
    rw [Side.other_other] at hother
    rw [hother]
    refine delivered_reader_step h.transfer h.sound hg hd ?_ hx
    rintro buf rfl
    exact hw he

/-! ### The start -/

lemma Fresh.flow (h : Fresh c) (w : Side) : c.flow w = ⟨0, 0, 0, [], [], [], .idle⟩ := by
  simp [Connection.flow, ITCP.flow, h.written, h.writep, h.sizep, h.inbox, h.arrived, h.pc]

lemma Fresh.transfers (h : Fresh c) (w : Side) : Transfers w (ITCP.listens (c w)) c where
  transfer :=
    { writer_estab := h.estab w
      reader_estab := h.estab _
      address := h.mirrored w
      reader_pc := h.pc _
      sizep_eq := by rw [h.sizep, h.written]; rfl
      written_le := by rw [h.written]; exact Nat.zero_le _
      writep_nonneg := by rw [h.writep]
      size_nonneg := by rw [h.sizep]
      holds := by rw [h.written]; exact fun i hi => absurd hi (Nat.not_lt_zero i)
      segs := by simp [h.inbox]
      acks := by simp [h.inbox]
      arrived := by simp [h.arrived]
      sent := by simp [h.sent]
      content := by simp [Covers, h.arrived] }
  sound := by
    rw [h.flow]
    constructor <;> simp
  listens := rfl

lemma Fresh.delivered (h : Fresh c) (w : Side) : Delivered (c w) (c w.other) := by
  constructor <;> simp [h.readp, h.sizep, h.returned]

lemma Fresh.gapless (h : Fresh c) (w : Side) : (c.flow w).Gapless := by
  simp [h.flow, Flow.Gapless]

lemma Fresh.covering (h : Fresh c) (w : Side) : (c.flow w).Covering := by
  rw [h.flow]
  constructor <;> simp

lemma Fresh.live (h : Fresh c) (w : Side) : (c.flow w).Live := by simp [h.flow, Flow.Live]

lemma Fresh.direct (h : Fresh c) (w : Side) : (c.flow w).Direct := by
  rw [h.flow]
  constructor <;> simp

/-- The two ends as `connect` and `accept` leave them: only the server socket has been bound. -/
def opened : Connection
  | .client => ⟨{ MySocket.create ⟨1, 2, 3, 4⟩ false with tcb := ⟨.client, .estab⟩ },
      [], .idle, [], [], [], []⟩
  | .server => ⟨{ MySocket.create ⟨2, 1, 4, 3⟩ true with role := .server, tcb := ⟨.server, .estab⟩ },
      [], .idle, [], [], [], []⟩

lemma opened_fresh : Fresh opened := by
  constructor <;> rintro (_ | _) <;> rfl

/-- A write of two bytes from `w`, its transfer, and a read of one of them. -/
def oneWrite (w : Side) : List ConnEvent :=
  [(w, .mywrite [5, 6]), (w, .send), (w.other, .process 0 0), (w.other, .read 1),
    (w, .process 0 0), (w, .writeReturn)]

lemma oneWrite_fifo (w : Side) : ∀ e ∈ oneWrite w, OneWay w e ∧ Fifo e := by
  simp [oneWrite, OneWay, Fifo]

/-! ### Networks that deliver in order -/

lemma Fifo.lossless (h : Fifo e) : Lossless e := by
  obtain ⟨x, e⟩ := e
  cases e <;> trivial

lemma Lossless.flowEvent (h : Lossless e) : (flowEvent w e).Lossless := by
  obtain ⟨x, e⟩ := e
  unfold Connection.flowEvent
  split_ifs <;> cases e <;> trivial

lemma Fifo.flowEvent (h : Fifo e) : (flowEvent w e).Fifo := by
  obtain ⟨x, e⟩ := e
  unfold Connection.flowEvent
  split_ifs <;> cases e <;> exact h

/-- What holds of a transfer over a network that delivers in order. -/
structure InOrder (w : Side) (b : Bool) (c : Connection) : Prop extends Transfers w b c where
  covering : (c.flow w).Covering
  contiguous : Flow.Contiguous (c.flow w).size (c.flow w).segs
  gapless : (c.flow w).Gapless
  delivered : Delivered (c w) (c w.other)

theorem inOrder_step (he : OneWay w e ∧ Fifo e) (h : InOrder w b c) (hs : c.step e = some d) :
    InOrder w b d := by
  obtain ⟨how, hfifo⟩ := he
  obtain ⟨htr, hflow⟩ := transfers_step how h.toTransfers hs
  have hfe : (flowEvent w e).Fifo := hfifo.flowEvent
  refine ⟨htr, ?_, ?_, ?_, ?_⟩
  · exact Flow.covering_step _ hfe.lossless h.sound h.covering hflow
  · exact Flow.contiguous_step _ hfe h.sound h.covering h.contiguous hflow
  · refine Flow.gapless_step _ h.gapless (fun i p hi hp => ?_) hflow
    rw [hi] at hfe
    obtain rfl : i = 0 := hfe
    exact h.contiguous.head_le hp
  · exact delivered_step how h.toTransfers h.gapless h.delivered hs

lemma Fresh.inOrder (h : Fresh c) (w : Side) : InOrder w (ITCP.listens (c w)) c where
  toTransfers := h.transfers w
  covering := h.covering w
  contiguous := by simp [h.flow, Flow.Contiguous]
  gapless := h.gapless w
  delivered := h.delivered w

lemma inOrder_run {es : List ConnEvent} (hc : Fresh c)
    (hes : ∀ e ∈ es, OneWay w e ∧ Fifo e) (h : run step c es = some d) :
    InOrder w (ITCP.listens (c w)) d :=
  run_invariant_of _ (fun _ _ _ he hi hs => inOrder_step he hi hs) hes (hc.inOrder w) h

/-- A client that only writes, a server that only reads, and a network that delivers in order:
the server's buffer holds what the client wrote, up to its `sizep`, and reads return it. -/
theorem stream_integrity {es : List ConnEvent} (hc : Fresh c)
    (hes : ∀ e ∈ es, OneWay .client e ∧ Fifo e) (h : run step c es = some d) :
    0 ≤ (d .server).sock.sizep ∧ (d .server).sock.sizep ≤ (d .client).sock.sizep ∧
      readAt (d .server).sock.databuf 0 (d .server).sock.sizep.toNat =
        (d .client).written.take (d .server).sock.sizep.toNat ∧
      0 ≤ (d .client).sock.writep ∧ (d .client).sock.writep ≤ (d .client).sock.sizep ∧
      (d .server).returned <+: (d .client).written := by
  have hi := inOrder_run hc hes h
  have hsize := hi.transfer.sizep_eq
  have hle : (d .server).sock.sizep.toNat ≤ (d .client).written.length := hi.sound.size_le
  have hw : (d .client).sock.writep.toNat ≤ (d .client).written.length := hi.sound.writep_le
  refine ⟨hi.transfer.size_nonneg, by omega, ?_, hi.transfer.writep_nonneg, by omega, ?_⟩
  · exact hi.transfer.readAt_eq hi.sound hi.gapless
  · exact hi.delivered.isPrefix

theorem stream_integrity_oneWrite : ∃ d, run step opened (oneWrite .client) = some d ∧
    (d .server).returned = [5] ∧ (d .server).returned <+: (d .client).written := by
  refine ⟨_, (Option.some_get (by decide +kernel)).symm, by decide +kernel, ?_⟩
  exact (stream_integrity opened_fresh (oneWrite_fifo .client)
    (Option.some_get (by decide +kernel)).symm).2.2.2.2.2

/-! ### Networks that reorder -/

/-- What holds of a transfer over a network that loses and repeats nothing. -/
structure Conserving (w : Side) (b : Bool) (c : Connection) : Prop extends Transfers w b c where
  covering : (c.flow w).Covering
  live : b = true → (c.flow w).Live

theorem conserving_step (he : OneWay w e ∧ Lossless e) (h : Conserving w b c)
    (hs : c.step e = some d) : Conserving w b d := by
  obtain ⟨how, hloss⟩ := he
  obtain ⟨htr, hflow⟩ := transfers_step how h.toTransfers hs
  refine ⟨htr, Flow.covering_step _ hloss.flowEvent h.sound h.covering hflow, ?_⟩
  rintro rfl
  exact Flow.live_step _ hloss.flowEvent h.sound (h.live rfl) hflow

lemma Fresh.conserving (h : Fresh c) (w : Side) : Conserving w (ITCP.listens (c w)) c where
  toTransfers := h.transfers w
  covering := h.covering w
  live := fun _ => h.live w

lemma conserving_run {es : List ConnEvent} (hc : Fresh c)
    (hes : ∀ e ∈ es, OneWay w e ∧ Lossless e) (h : run step c es = some d) :
    Conserving w (ITCP.listens (c w)) d :=
  run_invariant_of _ (fun _ _ _ he hi hs => conserving_step he hi hs) hes (hc.conserving w) h

lemma Quiet.segs (h : Quiet c) (w : Side) : (c.flow w).segs = [] := by
  simp [Connection.flow, ITCP.flow, h w.other]

lemma Quiet.acks (h : Quiet c) (w : Side) : (c.flow w).acks = [] := by
  simp [Connection.flow, ITCP.flow, h w]

/-- When nothing is on its way, every byte up to the reader's `sizep` has arrived. -/
lemma Quiet.gapless (h : Quiet c) (hc : (c.flow w).Covering) : (c.flow w).Gapless := by
  intro i hi
  have hcov := hc.covers i
  rw [h.segs, Flow.reach_nil, List.append_nil] at hcov
  exact hcov hi

/-- The transfer is complete. -/
structure Complete (c : Connection) (w : Side) : Prop where
  writep_eq : (c w).sock.writep = (c w).sock.sizep
  sizep_eq : (c w.other).sock.sizep = (c w).sock.sizep
  written_eq : (c w).sock.sizep = (c w).written.length
  content : readAt (c w.other).sock.databuf 0 (c w).written.length = (c w).written
  source : readAt (c w).sock.databuf 0 (c w).written.length = (c w).written

/-- When nothing is on its way, a writer that has caught up has everything delivered. -/
lemma complete_of_quiet (h : Transfers w b c) (hc : (c.flow w).Covering) (hq : Quiet c)
    (hw : (c.flow w).writep = (c.flow w).total) : Complete c w := by
  have hwritep := hc.writep_le
  have hsize := h.sound.size_le
  rw [hq.segs, Flow.reach_nil] at hwritep
  have h0 := h.transfer.writep_nonneg
  have hs := h.transfer.size_nonneg
  have hsizep := h.transfer.sizep_eq
  have hread := h.transfer.readAt_eq h.sound (hq.gapless hc)
  simp only [Connection.flow, ITCP.flow] at hw hwritep hsize
  have heq : (c w.other).sock.sizep.toNat = (c w).written.length := by omega
  refine ⟨by omega, by omega, hsizep, ?_, ?_⟩
  · rw [← heq, hread, heq, List.take_length]
  · rw [h.transfer.holds.readAt_eq (by omega), slice, List.drop_zero, List.take_length]

lemma Conserving.complete (h : Conserving w true c) (hq : Quiet c) (hpc : (c w).pc ≠ .wrote) :
    Complete c w := by
  refine complete_of_quiet h.toTransfers h.covering hq ?_
  rcases h.live rfl with hl | hl | hl | hl
  · exact absurd hl hpc
  · exact absurd (hq.segs w) hl
  · exact absurd (hq.acks w) hl
  · exact hl.1

/-! ### Counting -/

def isMywrite : ConnEvent → Bool
  | (_, .mywrite _) => true
  | _ => false

def isProcess : ConnEvent → Bool
  | (_, .process _ _) => true
  | _ => false

lemma cost_flowEvent (w : Side) (e : ConnEvent) :
    Flow.cost (flowEvent w e) = if isProcess e then 1 else 0 := by
  obtain ⟨x, e⟩ := e
  unfold flowEvent
  split_ifs with hw <;> cases e <;> simp_all [writerEvent, readerEvent, Flow.cost, isProcess]

lemma pay_flowEvent (T : ℕ) (w : Side) (e : ConnEvent) :
    Flow.pay T (flowEvent w e) ≤ if isMywrite e then 2 * T + 2 else 0 := by
  obtain ⟨x, e⟩ := e
  unfold flowEvent
  split_ifs with hw hm <;> cases e <;> simp_all [writerEvent, readerEvent, Flow.pay, isMywrite]

/-- Every write leads to a bounded number of processed packets. -/
theorem process_count {es : List ConnEvent} (hc : Fresh c)
    (hes : ∀ e ∈ es, OneWay w e ∧ Lossless e) (h : run step c es = some d) :
    es.countP isProcess ≤ es.countP isMywrite * (2 * bufSize + 2) := by
  have hcount := run_count (I := Conserving w (ITCP.listens (c w))) _
    (fun c => (c.flow w).potential bufSize) isProcess isMywrite (2 * bufSize + 2)
    (fun _ _ _ he hi hs => conserving_step he hi hs) (fun s e t he hi hs => ?_) hes
    (hc.conserving w) h
  · simp only [hc.flow, Flow.potential, List.map_nil, List.sum_nil, Flow.pcWeight] at hcount
    omega
  · obtain ⟨-, hflow⟩ := transfers_step he.1 hi.toTransfers hs
    have hle := Flow.potential_step _ he.2.flowEvent hi.transfer.written_le hflow
    have hpay := pay_flowEvent bufSize w e
    rw [cost_flowEvent] at hle
    exact hle.trans (Nat.add_le_add_left hpay _)

/-- The packets of a transfer can always be processed. -/
theorem process_possible (h : Transfers w b c) (x : Side) {i : ℕ} (hi : i < (c x).inbox.length)
    (tmp : UInt8) : (c.step (x, .process i tmp)).isSome := by
  have hp : (c x).inbox[i]? = some (c x).inbox[i] := List.getElem?_eq_getElem hi
  have hmem : (c x).inbox[i] ∈ (c x).inbox := List.getElem_mem hi
  suffices hd : (Endpoint.deliver (c x).sock (c x).inbox[i] tmp).isSome by
    obtain ⟨⟨sock, out⟩, hd⟩ := Option.isSome_iff_exists.mp hd
    simp [step, Endpoint.step, hp, hd]
  by_cases hw : x = w
  · subst hw
    rw [deliver_ack h.transfer tmp hmem]
    by_cases hrole : (c x).sock.role = .server
    · rw [MySocket.recvAck_server hrole]
      rfl
    · have hack := h.sound.acks_le _ (List.mem_map_of_mem (f := fun p => p.ack.toNat) hmem)
      obtain ⟨out, hout, -⟩ := recvAck_spec hrole h.transfer.sizep_eq h.transfer.written_le
        (hack.trans h.sound.size_le) h.transfer.holds (h.transfer.acks _ hmem)
      rw [hout]
      rfl
  · obtain rfl := Side.eq_other_of_ne hw
    obtain ⟨q, hq, -⟩ := deliver_piece_eq h.transfer h.sound tmp hmem
    rw [hq]
    rfl

/-- A client that only writes, a server that only reads, and a network that may reorder packets:
only finitely many packets are processed on account of a write, every packet on its way can be
processed, and when none is left the transfer is complete and the busy-wait can end. -/
theorem transfer_terminates_complete {es : List ConnEvent} (hc : Fresh c)
    (hrole : (c .client).sock.role = .unset)
    (hes : ∀ e ∈ es, OneWay .client e ∧ Lossless e) (h : run step c es = some d) :
    es.countP isProcess ≤ es.countP isMywrite * (2 * bufSize + 2) ∧
      (∀ x i tmp, i < (d x).inbox.length → (d.step (x, .process i tmp)).isSome) ∧
      (Quiet d → (d .client).pc ≠ .wrote →
        (d .client).sock.writep = (d .client).sock.sizep ∧
        (d .server).sock.sizep = (d .client).sock.sizep ∧
        readAt (d .server).sock.databuf 0 (d .server).sock.sizep.toNat =
          readAt (d .client).sock.databuf 0 (d .server).sock.sizep.toNat ∧
        ((d .client).pc = .spin → (d.step (.client, .writeReturn)).isSome)) := by
  have hi := conserving_run hc hes h
  have hlisten : ITCP.listens (c .client) = true := by simp [ITCP.listens, hrole]
  rw [hlisten] at hi
  refine ⟨process_count hc hes h, fun x i tmp hx => process_possible hi.toTransfers x hx tmp, ?_⟩
  intro hq hpc
  have hdone := hi.complete hq hpc
  have hlen : (d .server).sock.sizep.toNat = (d .client).written.length := by
    rw [show (d .server).sock.sizep = _ from hdone.sizep_eq, hdone.written_eq, Int.toNat_natCast]
  refine ⟨hdone.writep_eq, hdone.sizep_eq, ?_, fun hspin => ?_⟩
  · rw [hlen, hdone.source]
    exact hdone.content
  · simp [step, Endpoint.step, hspin, hdone.writep_eq]

theorem transfer_terminates_complete_oneWrite :
    ∃ d, run step opened (oneWrite .client) = some d ∧ Quiet d ∧
      (d .server).sock.sizep = (d .client).sock.sizep := by
  have hrun : run step opened (oneWrite .client) = some _ :=
    (Option.some_get (by decide +kernel)).symm
  have hquiet : Quiet ((run step opened (oneWrite .client)).get (by decide +kernel)) := by
    rintro (_ | _) <;> decide +kernel
  have hes : ∀ e ∈ oneWrite .client, OneWay .client e ∧ Lossless e :=
    fun e he => ⟨(oneWrite_fifo .client e he).1, (oneWrite_fifo .client e he).2.lossless⟩
  exact ⟨_, hrun, hquiet,
    ((transfer_terminates_complete opened_fresh rfl hes hrun).2.2 hquiet (by decide +kernel)).2.1⟩

/-! ### Either end as the writer -/

/-- Writes of at most one packet. -/
def Short : ConnEvent → Prop
  | (_, .mywrite buf) => buf.length ≤ 1000
  | _ => True

/-- A writer that does not react to acknowledgements still sends everything if each of its writes
fits into one packet. -/
structure DirectTransfer (w : Side) (c : Connection) : Prop extends Transfers w false c where
  direct : (c.flow w).Direct

theorem directTransfer_step (he : OneWay w e ∧ Short e) (h : DirectTransfer w c)
    (hs : c.step e = some d) : DirectTransfer w d := by
  obtain ⟨htr, hflow⟩ := transfers_step he.1 h.toTransfers hs
  refine ⟨htr, Flow.direct_step _ (fun k hk => ?_) h.sound h.direct hflow⟩
  obtain ⟨⟨x, e⟩, how, hshort⟩ := e, he
  unfold flowEvent at hk
  split_ifs at hk <;> cases e <;> simp_all [writerEvent, readerEvent, Short]

/-- Only `w` writes and only the other end reads, over a network that delivers in order. -/
theorem one_way_transfer (w : Side) {es : List ConnEvent} (hc : Fresh c)
    (hes : ∀ e ∈ es, OneWay w e ∧ Fifo e) (h : run step c es = some d) :
    (d w.other).returned <+: (d w).written ∧
      (Quiet d → (d w).pc ≠ .wrote →
        ((c w).sock.role ≠ .server ∨ ∀ e ∈ es, Short e) → Complete d w) := by
  refine ⟨(inOrder_run hc hes h).delivered.isPrefix, fun hq hpc hcond => ?_⟩
  have hcons := conserving_run hc (fun e he => ⟨(hes e he).1, (hes e he).2.lossless⟩) h
  by_cases hrole : (c w).sock.role = .server
  · have hlisten : ITCP.listens (c w) = false := by simp [ITCP.listens, hrole]
    have hshort : ∀ e ∈ es, OneWay w e ∧ Short e :=
      fun e he => ⟨(hes e he).1, hcond.resolve_left (not_not.mpr hrole) e he⟩
    have hstart : DirectTransfer w c := ⟨hlisten ▸ hc.transfers w, hc.direct w⟩
    have hdirect := run_invariant_of _ (fun _ _ _ he hi hs => directTransfer_step he hi hs)
      hshort hstart h
    exact complete_of_quiet hcons.toTransfers hcons.covering hq (hdirect.direct.sent hpc)
  · have hlisten : ITCP.listens (c w) = true := by simp [ITCP.listens, hrole]
    rw [hlisten] at hcons
    exact hcons.complete hq hpc

theorem one_way_transfer_oneWrite :
    ∃ d, run step opened (oneWrite .server) = some d ∧ Quiet d ∧ Complete d .server := by
  have hrun : run step opened (oneWrite .server) = some _ :=
    (Option.some_get (by decide +kernel)).symm
  have hquiet : Quiet ((run step opened (oneWrite .server)).get (by decide +kernel)) := by
    rintro (_ | _) <;> decide +kernel
  exact ⟨_, hrun, hquiet, (one_way_transfer .server opened_fresh (oneWrite_fifo .server) hrun).2
    hquiet (by decide +kernel) (Or.inr (by simp [oneWrite, Short]))⟩

/-- A data segment reaches a socket that listens. The socket is accepted on afterwards, the handshake
of the client with tuple `⟨1, 2, 3, 4⟩` is completed, and the connection is read from. -/
def strayBytes : List StreamsEvent :=
  ([Host.socketCall, .threads (.call (.bind 100 ⟨2, 0, 4, 0⟩)),
    .threads (.call (.listen 100 1))] ++ Host.arrival ⟨⟨5, 2, 6, 4⟩, 0, 0, 0, [9]⟩ ++
    [.threads (.call (.accept 100))] ++ Host.arrival ⟨⟨1, 2, 3, 4⟩, 0, 0, setSyn 0, [0]⟩ ++
    Host.arrival ⟨⟨1, 2, 3, 4⟩, 0, 1, setAck 0, [0]⟩ ++
    [.threads (.call (.acceptReturn 0))] : List HostEvent).map .host ++ [.read 101 1, .readReturn 0]

/-- The two directions share `databuf` and `sizep`: an end that writes reads back its own bytes. A
socket that has been accepted may read bytes that reached the listening one, although its client has
sent nothing but its handshake. -/
theorem full_duplex_fails :
    (Fresh opened ∧ ∃ d, run step opened [(.server, .mywrite [7]), (.server, .read 1)] = some d ∧
      (d .server).returned = [7] ∧ (d .client).written = []) ∧
    ∃ v s, run Streams.next Streams.init strayBytes = some v ∧ v.sockets.find? 101 = some s ∧
      s.tcb.status = .estab ∧ s.address = ⟨2, 1, 4, 3⟩ ∧ v.returned = [(101, [9])] := by
  refine ⟨⟨opened_fresh, _, (Option.some_get (by decide +kernel)).symm, by decide +kernel,
    by decide +kernel⟩, ?_⟩
  exact ⟨_, _, (Option.some_get (by decide +kernel)).symm,
    (Option.some_get (by decide +kernel)).symm, by decide +kernel, by decide +kernel,
    by decide +kernel⟩

/-! ### Networks that lose, repeat and reorder -/

/-- The end has processed a packet with the byte at offset `i` of the stream. -/
def Received (s : Endpoint) (i : ℕ) : Prop :=
  ∃ p ∈ s.arrived, p.seq.toNat ≤ i ∧ i < p.seq.toNat + p.payload.length

instance (s : Endpoint) (i : ℕ) : Decidable (Received s i) :=
  inferInstanceAs (Decidable (∃ p ∈ s.arrived, _))

lemma covers_arrived (c : Connection) (w : Side) (i : ℕ) :
    Covers (c.flow w).arrived i ↔ Received (c w.other) i := by
  simp [Covers, Received, Connection.flow, ITCP.flow, Segment.piece, pieceEnd]

/-- The packets that the reading end processes start at or below its `sizep`. -/
def NoGap (w : Side) (c : Connection) : ConnEvent → Prop
  | (x, .process i _) => x = w.other → ∀ p ∈ (c x).inbox[i]?, (p.seq.toNat : ℤ) ≤ (c x).sock.sizep
  | _ => True

instance (w : Side) (c : Connection) (e : ConnEvent) : Decidable (NoGap w c e) :=
  match e with
  | (x, .process i _) =>
    inferInstanceAs (Decidable (x = w.other → ∀ p ∈ (c x).inbox[i]?, _))
  | (_, .mywrite _) | (_, .send) | (_, .writeReturn) | (_, .read _) | (_, .drop _)
  | (_, .duplicate _) => inferInstanceAs (Decidable True)

/-- What holds of a transfer over any network as long as no packet leaves a gap. -/
structure Ungapped (w : Side) (b : Bool) (c : Connection) : Prop extends Transfers w b c where
  gapless : (c.flow w).Gapless
  delivered : Delivered (c w) (c w.other)

theorem ungapped_step (he : OneWay w e) (hgap : NoGap w c e) (h : Ungapped w b c)
    (hs : c.step e = some d) : Ungapped w b d := by
  obtain ⟨htr, hflow⟩ := transfers_step he h.toTransfers hs
  refine ⟨htr, Flow.gapless_step _ h.gapless (fun i q hi hq => ?_) hflow,
    delivered_step he h.toTransfers h.gapless h.delivered hs⟩
  obtain ⟨x, e⟩ := e
  unfold flowEvent at hi
  split_ifs at hi with hw <;> cases e <;> simp only [writerEvent, readerEvent, reduceCtorEq,
    FlowEvent.data.injEq] at hi
  obtain rfl := Side.eq_other_of_ne hw
  subst hi
  simp only [Connection.flow, ITCP.flow, List.getElem?_map, Option.map_eq_some_iff] at hq
  obtain ⟨p, hp, rfl⟩ := hq
  have hle := hgap rfl p hp
  simp only [Connection.flow, ITCP.flow, Segment.piece]
  omega

lemma ungapped_run {es : List ConnEvent} (hc : Fresh c) (hes : ∀ e ∈ es, OneWay w e)
    (h : run (restrict (NoGap w) step) c es = some d) : Ungapped w (ITCP.listens (c w)) d := by
  refine run_invariant_of _ (fun s e t he hi hs => ?_) hes
    ⟨hc.transfers w, hc.gapless w, hc.delivered w⟩ h
  obtain ⟨hgap, hs⟩ := restrict_eq_some.mp hs
  exact ungapped_step he hgap hi hs

/-- Over any network, as long as no packet leaves a gap: an acknowledgement with number `n` is
sent only when every byte below `n` has arrived, `sizep` is the length of a prefix that has
arrived, reads return bytes that have arrived, and an acknowledgement never moves `writep` past a
byte that has not. -/
theorem cumulative_acknowledgement (w : Side) {es : List ConnEvent} (hc : Fresh c)
    (hes : ∀ e ∈ es, OneWay w e) (h : run (restrict (NoGap w) step) c es = some d) :
    (∀ q ∈ (d w.other).sent, ∀ i < q.ack.toNat, Received (d w.other) i) ∧
      (∀ i < (d w.other).sock.sizep.toNat, Received (d w.other) i) ∧
      ((d w.other).returned = (d w).written.take (d w.other).sock.readp.toNat ∧
        (d w.other).sock.readp ≤ (d w.other).sock.sizep) ∧
      ∀ i tmp d', step d (w, .process i tmp) = some d' →
        (d' w).sock.writep = (d w).sock.writep ∨
          ∀ j < (d' w).sock.writep.toNat, Received (d' w.other) j := by
  have hu := ungapped_run hc hes h
  have hrec : ∀ i < (d w.other).sock.sizep.toNat, Received (d w.other) i :=
    fun i hi => (covers_arrived d w i).mp (hu.gapless i hi)
  refine ⟨fun q hq i hi => ?_, hrec, ⟨hu.delivered.returned, hu.delivered.readp_le⟩, ?_⟩
  · obtain ⟨-, p, hp, hend⟩ := hu.transfer.sent q hq
    have hle : pieceEnd p.piece ≤ (d w.other).sock.sizep.toNat :=
      hu.sound.arrived_le p.piece (List.mem_map_of_mem hp)
    exact hrec i (by omega)
  · intro i tmp d' hs
    obtain ⟨out, hx, hother⟩ := step_eq_some.mp hs
    obtain ⟨p, writep, hp, -, hw', hlisten, hdeaf⟩ := processAck_cases hu.transfer hu.sound hx
    rw [hother, hw']
    cases hl : ITCP.listens (d w) with
    | false => exact Or.inl (hdeaf hl).1
    | true =>
      refine Or.inr fun j hj => hrec j ?_
      have hack : p.ack.toNat ≤ (d w.other).sock.sizep.toNat := hu.sound.acks_le _
        (List.mem_map_of_mem (f := fun p => p.ack.toNat) (List.mem_of_getElem? hp))
      have hwritep := (hlisten hl).1
      dsimp only at hj
      omega

theorem cumulative_acknowledgement_oneWrite :
    ∃ d, run (restrict (NoGap .client) step) opened (oneWrite .client) = some d ∧
      ∀ q ∈ (d .server).sent, ∀ i < q.ack.toNat, Received (d .server) i := by
  have hrun : run (restrict (NoGap .client) step) opened (oneWrite .client) = some _ :=
    (Option.some_get (by decide +kernel)).symm
  exact ⟨_, hrun, (cumulative_acknowledgement .client opened_fresh
    (fun e he => (oneWrite_fifo .client e he).1) hrun).1⟩

/-- Two writes of a byte each, of which the second one overtakes the first on its way. -/
def overtaken : List ConnEvent :=
  [(.client, .mywrite [5]), (.client, .send), (.client, .writeReturn), (.client, .mywrite [6]),
    (.client, .send), (.server, .process 1 0)]

/-- The packet that arrives is acknowledged past the byte in the one that does not. And the send step
moves `writep` over the bytes it has just sent, before any of them can have arrived. -/
theorem cumulative_acknowledgement_fails :
    Fresh opened ∧ (∀ e ∈ overtaken, OneWay .client e) ∧
      (∃ d, run step opened overtaken = some d ∧
        ∃ q ∈ (d .server).sent, ∃ i < q.ack.toNat, ¬Received (d .server) i) ∧
      ∃ d, run (restrict (NoGap .client) step) opened (overtaken.take 2) = some d ∧
        (d .client).sock.writep = 1 ∧ ¬Received (d .server) 0 :=
  ⟨opened_fresh, by simp [overtaken, OneWay],
    ⟨_, (Option.some_get (by decide +kernel)).symm, by decide +kernel⟩,
    ⟨_, (Option.some_get (by decide +kernel)).symm, by decide +kernel, by decide +kernel⟩⟩

/-- The condition is needed: the first packet that leaves a gap is acknowledged past bytes that
have not arrived. -/
theorem acknowledged_past_gap {i : ℕ} {tmp : UInt8} (h : Ungapped w b c)
    (hgap : ¬NoGap w c (w.other, .process i tmp))
    (hs : c.step (w.other, .process i tmp) = some d) :
    ∃ q ∈ (d w.other).sent, ∃ i < q.ack.toNat, ¬Received (d w.other) i := by
  obtain ⟨out, hx, hother⟩ := step_eq_some.mp hs
  obtain ⟨p, q, hp, rfl, hack, hend, hr⟩ := processPiece_cases h.transfer h.sound hx
  have hlt : (c w.other).sock.sizep < p.seq.toNat := by simpa [NoGap, hp] using hgap
  have h0 := h.transfer.size_nonneg
  have hgap' : (c.flow w).size < p.piece.1 := by
    simp only [Connection.flow, ITCP.flow, Segment.piece]
    omega
  refine ⟨q, ?_, (c.flow w).size, ?_, fun hrec => ?_⟩
  · rw [hr]
    exact List.mem_append_right _ (List.mem_singleton_self q)
  · rw [hend]
    exact hgap'.trans_le (Nat.le_add_right _ _)
  · refine Flow.not_covers_recvData (i := i) h.sound hgap' ?_
    rw [← covers_arrived] at hrec
    simpa [Connection.flow, ITCP.flow, Flow.recvData, hr] using hrec

end ITCP.Connection
