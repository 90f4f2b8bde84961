import ITCP.Proofs.Streams

/-!
# Data on connections that are not open

A segment without flags gets to `recvTCPPacket` whatever the status of its socket is. As long as
this does not happen, and the calls that open a connection are made on sockets that have not been
used, the stream of a socket is untouched when its handshake is complete.
-/

namespace ITCP
open Lib

/-- TCP may carry data on a connection with this status. -/
def Status.synchronised : Status → Bool
  | .estab | .finwait1 | .finwait2 => true
  | _ => false

/-- A handshake has still to take place or to be completed. -/
def Status.opening : Status → Bool
  | .listen | .synsent | .synrcvd => true
  | _ => false

lemma Status.not_synchronised {x : Status} (h : x.opening) : ¬x.synchronised := by
  revert h
  cases x <;> decide

/-- A data segment: it has none of the flags. -/
def Segment.isPlain (p : Segment) : Bool := !isSyn p.flag && !isFin p.flag && !isAck p.flag

namespace MySocket

variable {s t : MySocket} {p : Segment} {tmp : UInt8} {out : List Segment}

/-- If the connection is not synchronised, the packet is processed, the stream stays as it is, and
data is not acknowledged. -/
def Guarded (s : MySocket) (p : Segment) (tmp : UInt8) : Prop :=
  ¬s.tcb.status.synchronised → ∃ t out, s.readIPPacket p tmp = some (t, out) ∧ SameStream s t ∧
    (p.isPlain → out = [])

/-- Nothing has been written, sent or read. -/
structure Unused (s : MySocket) : Prop where
  readp : s.readp = 0
  writep : s.writep = 0
  sizep : s.sizep = 0

instance : Decidable s.Unused :=
  decidable_of_iff (s.readp = 0 ∧ s.writep = 0 ∧ s.sizep = 0)
    ⟨fun h => ⟨h.1, h.2.1, h.2.2⟩, fun h => ⟨h.readp, h.writep, h.sizep⟩⟩

/-- The stream is that of a new socket. -/
structure Untouched (s : MySocket) : Prop extends Unused s where
  databuf : ∀ i, s.databuf i = 0

lemma Unused.of_same (h : s.Unused) (hst : SameStream s t) : t.Unused :=
  ⟨hst.readp ▸ h.readp, hst.writep ▸ h.writep, hst.sizep ▸ h.sizep⟩

lemma isPlain_iff : p.isPlain ↔ ¬isSyn p.flag ∧ ¬isFin p.flag ∧ ¬isAck p.flag := by
  simp [Segment.isPlain, and_assoc]

/-- Without a synchronised connection only data segments get to `recvTCPPacket`. -/
lemma transfers_iff (hs : ¬s.tcb.status.synchronised) : s.Transfers p ↔ p.isPlain := by
  rw [isPlain_iff]
  constructor
  · rintro ⟨hsyn, hfin, hack⟩
    refine ⟨hsyn, hfin, fun hp => hs ?_⟩
    rw [hack hp]
    rfl
  · rintro ⟨hsyn, hfin, hack⟩
    exact ⟨hsyn, hfin, fun hp => absurd hp hack⟩

/-- Only data segments are not guarded against. -/
lemma guarded_packet_iff (hfits : p.Fits) : s.Guarded p tmp ↔ s.tcb.status.synchronised ∨ ¬p.isPlain := by
  by_cases hs : s.tcb.status.synchronised
  · exact iff_of_true (fun hs' => absurd hs hs') (Or.inl hs)
  by_cases hp : p.isPlain
  · refine iff_of_false (fun h => ?_) (fun h => h.elim hs fun hp' => hp' hp)
    obtain ⟨t, out, ht, -, hout⟩ := h hs
    rw [readIPPacket_of_transfers ((transfers_iff hs).mpr hp) hfits, MySocket.recvTCPPacket,
      if_neg (isPlain_iff.mp hp).2.2] at ht
    obtain ⟨databuf, -, -, hanswer⟩ := recvData_eq_some ht
    rw [hout hp] at hanswer
    cases hanswer
  · refine iff_of_true (fun _ => ?_) (Or.inr hp)
    have hnot : ¬s.Transfers p := fun h => hp ((transfers_iff hs).mp h)
    have hsome : (s.readIPPacket p tmp).isSome := readIPPacket_of_not_transfers hnot hfits
    obtain ⟨⟨t, out⟩, ht⟩ := Option.isSome_iff_exists.mp hsome
    rcases readIPPacket_stream ht with ⟨h, -⟩ | ⟨-, hstream⟩
    · exact absurd h hnot
    · exact ⟨t, out, ht, hstream, fun h => absurd h hp⟩

/-- A packet that is no data does not make a connection one that is being opened. -/
lemma readIPPacket_opening (hp : ¬s.Transfers p) (h : s.readIPPacket p tmp = some (t, out))
    (ht : t.tcb.status.opening) : s.tcb.status.opening := by
  have htcb := s.located_tcb p
  cases readIPPacket_reads h with
  | synAck | accAck => cases ht
  | syn hsyn hst | crossing hsyn hst =>
    rw [htcb] at hst
    rw [hst]
    rfl
  | fin hsyn hfin x flags hmove =>
    obtain ⟨-, rfl, -⟩ | ⟨-, rfl, -⟩ | ⟨-, rfl, -⟩ := mem_finMoves.mp hmove <;> cases ht
  | ack hsyn hfin hack x hmove =>
    obtain ⟨-, rfl⟩ | ⟨-, rfl⟩ | ⟨-, rfl⟩ := mem_ackMoves.mp hmove <;> cases ht
  | data hsyn hfin hack =>
    rw [htcb] at hack
    exact absurd ⟨hsyn, hfin, hack⟩ hp
  | ignored => rwa [htcb] at ht

/-- A packet that is no data, or meets a synchronised connection, does not touch the stream of a
connection that is still being opened. -/
lemma unused_readIPPacket (hs : s.tcb.status.opening → s.Unused)
    (hp : ¬p.isPlain ∨ s.tcb.status.synchronised) (h : s.readIPPacket p tmp = some (t, out))
    (ht : t.tcb.status.opening) : t.Unused := by
  rcases readIPPacket_stream h with ⟨htransfers, hrecv⟩ | ⟨hnot, hstream⟩
  · have htcb := (recvTCPPacket_sameState hrecv).tcb
    rw [htcb, s.located_tcb] at ht
    have hsync := Status.not_synchronised ht
    exact absurd ((transfers_iff hsync).mp htransfers) (hp.resolve_right hsync)
  · exact (hs (readIPPacket_opening hnot h ht)).of_same hstream

/-! ### The buffer beyond the data -/

/-- The reader has not gone below zero, and there is nothing in the buffer beyond the data. -/
structure Clean (s : MySocket) : Prop where
  readp_nonneg : 0 ≤ s.readp
  sized : s.Sized
  zero : ∀ i : ℕ, s.sizep ≤ i → s.databuf i = 0

namespace Clean

lemma of_same (h : s.Clean) (hst : SameStream s t) : t.Clean :=
  ⟨hst.readp ▸ h.readp_nonneg, ⟨hst.sizep ▸ h.sized.nonneg, hst.sizep ▸ h.sized.fits⟩,
    fun i hi => by rw [hst.databuf]; exact h.zero i (hst.sizep ▸ hi)⟩

lemma recvTCPPacket (h : s.Clean) (ht : s.recvTCPPacket p tmp = some (t, out)) : t.Clean := by
  unfold MySocket.recvTCPPacket at ht
  split_ifs at ht
  · obtain ⟨-, rfl, -⟩ | ⟨-, rfl, -⟩ := recvAck_eq_some ht
    · exact h
    · exact ⟨h.readp_nonneg, ⟨h.sized.nonneg, h.sized.fits⟩, h.zero⟩
  · have hfits := recvData_isSome.mp (Option.isSome_iff_exists.mpr ⟨_, ht⟩)
    have hsized := h.sized.recvData ht
    rw [recvData_spec tmp hfits h.sized.nonneg h.sized.fits] at ht
    cases ht
    refine ⟨h.readp_nonneg, hsized, fun i hi => ?_⟩
    obtain ⟨hsizep, hend⟩ := max_le_iff.mp hi
    have hout : ¬(p.seq.toNat ≤ i ∧ i < p.seq.toNat + p.payload.length) := by
      simp only [pieceEnd, Segment.piece] at hend
      omega
    exact (writeAt_of_not_mem _ _ hout).trans (h.zero i hsizep)

lemma myread {len : ℤ} {buf : List UInt8} (h : s.Clean) (ht : s.myread len = some (buf, t)) :
    t.Clean := by
  obtain ⟨-, hlen, -, -, rfl⟩ := myread_eq_some.mp ht
  exact ⟨add_nonneg h.readp_nonneg hlen, ⟨h.sized.nonneg, h.sized.fits⟩, h.zero⟩

lemma mywrite {buf : List UInt8} (h : s.Clean) (ht : s.mywrite buf = some t) : t.Clean := by
  have hsized := MySocket.Sized.mywrite ht
  obtain ⟨h0, -, rfl⟩ := mywrite_eq_some.mp ht
  refine ⟨h.readp_nonneg, hsized, fun i hi => ?_⟩
  dsimp only at hi ⊢
  rw [writeAt_of_not_mem _ _ (by omega)]
  exact h.zero i (by omega)

lemma wrapWriteSend (h : s.Clean) (ht : s.wrapWriteSend = some (t, out)) : t.Clean := by
  obtain rfl := wrapWriteSend_eq_some ht
  exact ⟨h.readp_nonneg, ⟨h.sized.nonneg, h.sized.fits⟩, h.zero⟩

/-- A socket that has not been used is as good as new. -/
lemma untouched (h : s.Clean) (hunused : s.Unused) : s.Untouched :=
  ⟨hunused, fun i => h.zero i (by rw [hunused.sizep]; exact Int.natCast_nonneg i)⟩

end Clean

end MySocket

namespace Streams

variable {v w : Streams} {e : StreamsEvent} {es : List StreamsEvent}

lemma clean_next (hv : ∀ fd s, v.sockets.find? fd = some s → s.Clean) (hw : v.next e = some w) :
    ∀ fd s, w.sockets.find? fd = some s → s.Clean := by
  refine forall_next ?_ (fun s t hst hs => hs.of_same hst) ?_
    (fun _ _ s buf t _ _ _ _ ht hs => hs.myread ht) (fun s buf t ht hs => hs.mywrite ht)
    (fun s t out ht hs => hs.wrapWriteSend ht) hv hw
  · exact fun address b => ⟨le_rfl, sized_create address b, fun i _ => rfl⟩
  · exact fun s p tmp t out _ hs _ ht => (hs.of_same (s.sameStream_located p)).recvTCPPacket ht

/-- The socket, if there is one, has not been used. -/
def unusedAt (v : Streams) (fd : ℤ) : Bool := (v.sockets.find? fd).all (fun s => s.Unused)

/-- Data segments are processed on synchronised connections with the peer that they come from, the
calls that open a connection or change its tuple are made on sockets that have not been used, nothing
is written on a connection that is being opened, and what is received and written fits into the
buffers. -/
def orderly (v : Streams) : StreamsEvent → Bool
  | .host (.threads (.call (.bind fd _))) =>
    (v.sockets.find? fd).all (fun s => s.role != .unset || s.Unused)
  | .host (.threads (.call (.listen fd _))) => v.unusedAt fd
  | .host (.threads (.call (.accept fd))) => v.unusedAt fd && v.unusedAt (freeFd v.sockets)
  | .host (.threads (.call (.acceptReturn i))) =>
    (v.host.threads.kernel.calls[i]?).all (fun call => v.unusedAt call.socket)
  | .host (.connect fd _ _) => v.unusedAt fd
  | .host (.threads (.receive p)) => decide p.Fits
  | .host (.threads (.processorStep tmp)) =>
    (v.processing (.host (.threads (.processorStep tmp)))).all (fun a =>
      (!a.2.isPlain || a.1.tcb.status.synchronised && a.2.info == a.1.address.mirror) &&
        decide (a.1.Transfers a.2 → a.1.CopyFits a.2))
  | .write fd buf => (v.sockets.find? fd).all (fun s => !s.tcb.status.opening &&
    decide (s.sizep + (buf.length : ℤ) ≤ bufSize))
  | _ => true

/-- What the condition says of the packet that the processing thread takes next. -/
lemma peer_of_orderly {tmp : UInt8} {fd : ℤ} {s : MySocket} {p : Segment}
    (hc : v.orderly (.host (.threads (.processorStep tmp)))) (hp : v.host.nextPacket = some (fd, p))
    (hs : v.sockets.find? fd = some s) :
    ¬p.isPlain ∨ s.tcb.status.synchronised ∧ p.info = s.address.mirror := by
  simp only [orderly] at hc
  rw [processing_eq_some tmp hp hs, Option.all_some, Bool.and_eq_true] at hc
  simpa using hc.1

/-- What is needed to see that sockets are not used before their handshake is complete. -/
structure Orderly (v : Streams) : Prop where
  clean : ∀ fd s, v.sockets.find? fd = some s → s.Clean
  reads : ∀ r ∈ v.reads, 0 ≤ r.pastread
  opening : ∀ fd s, v.sockets.find? fd = some s → s.tcb.status.opening → s.Unused

lemma reads_next (h : v.Orderly) (hw : v.next e = some w) : ∀ r ∈ w.reads, 0 ≤ r.pastread := by
  obtain ⟨out, hw⟩ := next_eq_some.mp hw
  cases e with
  | host e =>
    obtain ⟨_, -, hw⟩ := Option.bind_eq_some_iff.mp hw
    cases hw
    exact h.reads
  | read fildes nbyte =>
    obtain ⟨s, hs, hw⟩ := Option.bind_eq_some_iff.mp hw
    cases hw
    intro r hr
    rcases List.mem_append.mp hr with hr | hr
    · exact h.reads r hr
    · obtain rfl := List.mem_singleton.mp hr
      exact (h.clean fildes s hs).readp_nonneg
  | readReturn i =>
    obtain ⟨_, -, hw⟩ := Option.bind_eq_some_iff.mp hw
    obtain ⟨_, -, hw⟩ := Option.bind_eq_some_iff.mp hw
    split_ifs at hw
    obtain ⟨_, -, hw⟩ := Option.bind_eq_some_iff.mp hw
    cases hw
    exact fun r hr => h.reads r (List.mem_of_mem_eraseIdx hr)
  | write =>
    obtain ⟨_, -, hw⟩ := Option.bind_eq_some_iff.mp hw
    obtain ⟨_, -, hw⟩ := Option.bind_eq_some_iff.mp hw
    cases hw
    exact h.reads
  | writeSend i =>
    obtain ⟨_, -, hw⟩ := Option.bind_eq_some_iff.mp hw
    obtain ⟨_, -, hw⟩ := Option.bind_eq_some_iff.mp hw
    obtain ⟨_, -, hw⟩ := Option.bind_eq_some_iff.mp hw
    cases hw
    exact h.reads

lemma unused_of_unusedAt {fd : ℤ} {s : MySocket} (h : v.unusedAt fd)
    (hs : v.sockets.find? fd = some s) : s.Unused := by
  rw [unusedAt, hs, Option.all_some, decide_eq_true_eq] at h
  exact h

/-- A read that returns on a socket that has not been used returns nothing. -/
lemma unused_myread {s t : MySocket} {r : ReadCall} {buf : List UInt8} (hs : s.Unused)
    (hr : 0 ≤ r.pastread) (hready : r.pastread + r.len ≤ s.sizep)
    (ht : s.myread r.len = some (buf, t)) : t.Unused := by
  obtain ⟨-, hlen, -, -, rfl⟩ := myread_eq_some.mp ht
  have := hs.readp
  rw [hs.sizep] at hready
  exact ⟨by dsimp only; omega, hs.writep, hs.sizep⟩

lemma unused_wrapWriteSend {s t : MySocket} {out : List Segment} (hs : s.Unused)
    (ht : s.wrapWriteSend = some (t, out)) : t.Unused := by
  obtain rfl := MySocket.wrapWriteSend_eq_some ht
  have := hs.writep
  have := hs.sizep
  exact ⟨hs.readp, by dsimp only; split_ifs <;> omega, hs.sizep⟩

/-- The socket that `accept` makes listen: the copy, or the one that is there when all descriptors are
in use. -/
lemma unused_accept {m : SocketSet} {s : MySocket} {k : ℤ} (fd : ℤ) (hs : s.Unused)
    (hold : ∀ u, m.find? k = some u → u.Unused) :
    ∀ t, ((m.insert k s).modify fd (·.setStatus .closed)).find? k = some t → t.Unused := by
  have hinsert : ∀ t, (m.insert k s).find? k = some t → t.Unused := by
    intro t ht
    rw [OrdMap.find?_insert, if_pos rfl] at ht
    cases hk : m.find? k with
    | none =>
      rw [hk, Option.getD_none, Option.some.injEq] at ht
      exact ht ▸ hs
    | some u =>
      rw [hk, Option.getD_some, Option.some.injEq] at ht
      exact ht ▸ hold u hk
  intro t ht
  rw [OrdMap.find?_modify] at ht
  split_ifs at ht with heq
  · obtain ⟨u, hu, rfl⟩ := Option.map_eq_some_iff.mp ht
    exact (hinsert u (heq ▸ hu)).of_same (u.sameStream_setStatus _)
  · exact hinsert t ht

/-- The sockets whose connection is being opened have not been used. -/
lemma opening_next (h : v.Orderly) (hc : v.orderly e) (hw : v.next e = some w) :
    ∀ fd s, w.sockets.find? fd = some s → s.tcb.status.opening → s.Unused := by
  have hstep := tableStep_next hw
  generalize w.sockets = m at hstep ⊢
  have hv := h.opening
  cases hstep with
  | host e m hstep =>
    cases hstep with
    | same => exact hv
    | socket address b => exact OrdMap.forall_insert hv fun _ => ⟨rfl, rfl, rfl⟩
    | bind fd address =>
      refine OrdMap.forall_modify hv fun s hs ht => ?_
      unfold MySocket.bind at ht ⊢
      split_ifs at ht ⊢
      · exact hv fd s hs ht
      · cases ht
    | listen fd =>
      refine OrdMap.forall_modify hv fun s hs _ => ?_
      exact (unused_of_unusedAt hc hs).of_same (s.sameStream_setStatus _)
    | accept fd s hs =>
      -- the new socket has the stream of the listening one
      obtain ⟨hfd, hfree⟩ := Bool.and_eq_true_iff.mp hc
      have hnew := unused_accept fd (unused_of_unusedAt hfd hs) fun u hu => unused_of_unusedAt hfree hu
      have hinsert := OrdMap.forall_insert (k := freeFd v.sockets) hv
        fun _ => unused_of_unusedAt hfd hs
      have hclosed := OrdMap.forall_modify (k := fd) (f := (·.setStatus .closed)) hinsert
        fun _ _ ht => by cases ht
      exact OrdMap.forall_modify hclosed fun t ht _ =>
        (hnew t ht).of_same (t.sameStream_setStatus _)
    | acceptReturn i call hcall =>
      refine OrdMap.forall_modify hv fun s hs _ => ?_
      simp only [orderly] at hc
      rw [hcall, Option.all_some] at hc
      exact (unused_of_unusedAt hc hs).of_same (s.sameStream_setStatus _)
    | syn p fd s =>
      exact OrdMap.forall_modify hv fun s hs ht => (hv fd s hs ht).of_same ⟨rfl, rfl, rfl, rfl⟩
    | process tmp fd p s t out hp hs ht =>
      refine OrdMap.forall_modify hv fun _ _ hopening => ?_
      exact MySocket.unused_readIPPacket (hv fd s hs) ((peer_of_orderly hc hp hs).imp_right And.left)
        ht hopening
    | connect fd address tmp s hs =>
      exact OrdMap.forall_modify hv fun _ _ _ =>
        (unused_of_unusedAt hc hs).of_same ⟨rfl, rfl, rfl, rfl⟩
    | closeStatus i call => exact OrdMap.forall_modify hv fun s hs ht => by cases ht
  | read => exact hv
  | readReturn i r s buf t hr hs hready ht =>
    refine OrdMap.forall_modify hv fun _ _ hopening => ?_
    have htcb : t.tcb = s.tcb := by
      obtain ⟨-, -, -, -, rfl⟩ := myread_eq_some.mp ht
      rfl
    rw [htcb] at hopening
    exact unused_myread (hv _ s hs hopening) (h.reads r (List.mem_of_getElem? hr)) hready ht
  | write fildes buf s t hs ht =>
    refine OrdMap.forall_modify hv fun _ _ hopening => ?_
    have htcb : t.tcb = s.tcb := by
      obtain ⟨-, -, rfl⟩ := mywrite_eq_some.mp ht
      rfl
    simp only [orderly] at hc
    rw [hs, Option.all_some, Bool.and_eq_true, Bool.not_eq_true', ← htcb, hopening] at hc
    cases hc.1
  | writeSend i fildes s t out hfildes hs ht =>
    refine OrdMap.forall_modify hv fun _ _ hopening => ?_
    have htcb : t.tcb = s.tcb := by
      obtain rfl := MySocket.wrapWriteSend_eq_some ht
      rfl
    rw [htcb] at hopening
    exact unused_wrapWriteSend (hv _ s hs hopening) ht

lemma orderly_next (h : v.Orderly) (hc : v.orderly e) (hw : v.next e = some w) : w.Orderly :=
  ⟨clean_next h.clean hw, reads_next h hw, opening_next h hc hw⟩

end Streams

end ITCP
