import ITCP.Proofs.Descriptors

/-!
# Demultiplexing

A packet that some socket is meant for is queued on such a socket, and nothing else happens. A packet
that no socket is meant for is not dropped: a SYN makes `recvIPPacket` write through the past-the-end
entry of the socket table, and any other packet goes to descriptor 100. Neither is a packet exact that
is longer than the buffer that `recvIPPacket` copies it into.
-/

namespace ITCP
open Lib

/-- The socket a packet is meant for: one that listens at its destination, for a SYN, and one that
stores the mirrored tuple, for any other packet. -/
def MySocket.isMeant (s : MySocket) (p : Segment) : Bool :=
  if p.isSynOnly then s.listensFor p else s.address == p.info.mirror

namespace Tables

variable {t u : Tables} {p : Segment} {fd : ℤ}

/-- Every socket has a queue and every queue a socket, and the queues are rings. -/
structure Valid (t : Tables) : Prop where
  keys : ∀ fd, (t.socketQueue.find? fd).isSome = (t.sockets.find? fd).isSome
  queues : ∀ fd q, t.socketQueue.find? fd = some q → q.WF
  unSolved : t.unSolvedSocket.WF

def Meant (t : Tables) (p : Segment) (fd : ℤ) : Prop :=
  ∃ s, t.sockets.find? fd = some s ∧ s.isMeant p

/-- The packet is queued on the socket and the socket on `unSolvedSocket`; apart from that only a
SYN changes anything, the address of the socket. -/
structure QueuedOn (t u : Tables) (p : Segment) (fd : ℤ) : Prop where
  sockets : u.sockets =
    if p.isSynOnly then t.sockets.modify fd (·.setAddress p.info.mirror) else t.sockets
  queue : ∃ q q', t.socketQueue.find? fd = some q ∧ u.socketQueue.find? fd = some q' ∧
    q'.contents = q.contents ++ [p]
  others : ∀ fd', fd' ≠ fd → u.socketQueue.find? fd' = t.socketQueue.find? fd'
  unSolved : u.unSolvedSocket.contents = t.unSolvedSocket.contents ++ [fd]

/-- One of the queues that a packet for the socket goes through has no place left. -/
def Full (t : Tables) (fd : ℤ) : Prop :=
  (∃ q, t.socketQueue.find? fd = some q ∧ q.isfull) ∨ t.unSolvedSocket.isfull

/-- A packet that a socket is meant for is queued on such a socket, as soon as there is a place for
it; any other packet is dropped. -/
structure Exact (t : Tables) (p : Segment) : Prop where
  queued : (∃ fd, t.Meant p fd) → ∃ fd, t.Meant p fd ∧
    ((∃ u, t.recv p = .returned fd u ∧ QueuedOn t u p fd) ∨ t.recv p = .waits fd ∧ t.Full fd)
  dropped : (¬∃ fd, t.Meant p fd) → ∃ fd, t.recv p = .returned fd t

/-- The search finds a socket if there is one. -/
lemma recvIPPacket_of_meant (hfits : p.Fits) (h : ∃ fd, t.Meant p fd) : ∃ fd, t.Meant p fd ∧
    recvIPPacket t.sockets p = some (fd,
      if p.isSynOnly then t.sockets.modify fd (·.setAddress p.info.mirror) else t.sockets) := by
  obtain ⟨fd, s, hs, hmeant⟩ := h
  unfold MySocket.isMeant at hmeant
  by_cases hp : p.isSynOnly
  · rw [if_pos hp] at hmeant
    cases hsearch : t.sockets.search (fun _ s => s.listensFor p) with
    | none => exact absurd hmeant (OrdMap.search_eq_none.mp hsearch fd s hs)
    | some a =>
      obtain ⟨hfind, hlistens, -⟩ := OrdMap.search_eq_some.mp hsearch
      refine ⟨a.1, ⟨a.2, hfind, by rw [MySocket.isMeant, if_pos hp]; exact hlistens⟩, ?_⟩
      rw [recvIPPacket, if_neg (not_not_intro hfits), if_pos hp, hsearch, if_pos hp]
      rfl
  · rw [if_neg hp] at hmeant
    cases hsearch : t.sockets.search (fun _ s => s.address == p.info.mirror) with
    | none => exact absurd hmeant (OrdMap.search_eq_none.mp hsearch fd s hs)
    | some a =>
      obtain ⟨hfind, haddr, -⟩ := OrdMap.search_eq_some.mp hsearch
      refine ⟨a.1, ⟨a.2, hfind, by rw [MySocket.isMeant, if_neg hp]; exact haddr⟩, ?_⟩
      rw [recvIPPacket, if_neg (not_not_intro hfits), if_neg hp, hsearch, if_neg hp]
      exact if_pos (by rw [hfind]; rfl)

/-- What a call has done that returns. -/
lemma recv_eq_returned (h : t.recv p = .returned fd u) : ∃ m q q' unSolvedSocket,
    recvIPPacket t.sockets p = some (fd, m) ∧ t.socketQueue.find? fd = some q ∧
      q.push p = some q' ∧ t.unSolvedSocket.push fd = some unSolvedSocket ∧
      u = ⟨m, t.socketQueue.modify fd (fun _ => q'), unSolvedSocket⟩ := by
  unfold recv at h
  split at h
  · cases h
  rename_i connfd m hm
  split at h
  · cases h
  rename_i q hq
  split at h
  · rename_i q' unSolvedSocket hq' hunsolved
    obtain ⟨rfl, rfl⟩ := Received.returned.inj h
    exact ⟨m, q, q', unSolvedSocket, hm, hq, hq', hunsolved, rfl⟩
  · cases h

lemma queuedOn_of_recv (h : t.Valid) (hrecv : t.recv p = .returned fd u) {m : SocketSet}
    (hm : recvIPPacket t.sockets p = some (fd, m)) : u.sockets = m ∧
      (∃ q q', t.socketQueue.find? fd = some q ∧ u.socketQueue.find? fd = some q' ∧
        q'.contents = q.contents ++ [p]) ∧
      (∀ fd', fd' ≠ fd → u.socketQueue.find? fd' = t.socketQueue.find? fd') ∧
      u.unSolvedSocket.contents = t.unSolvedSocket.contents ++ [fd] := by
  obtain ⟨m', q, q', unSolvedSocket, hm', hq, hq', hunsolved, rfl⟩ := recv_eq_returned hrecv
  obtain ⟨-, rfl⟩ := Prod.mk.inj (Option.some.inj (hm'.symm.trans hm))
  have hqueue := (BlockingQueue.push_spec (h.queues fd q hq) hq').2.2.2
  refine ⟨rfl, ⟨q, q', hq, ?_, hqueue⟩, fun fd' hne => OrdMap.find?_modify_of_ne _ _ hne,
    (BlockingQueue.push_spec h.unSolved hunsolved).2.2.2⟩
  rw [OrdMap.find?_modify_self, hq, Option.map_some]

/-- A call returns or waits when the socket that it has found is in the table. -/
lemma recv_of_some (h : t.Valid) {m : SocketSet} (hm : recvIPPacket t.sockets p = some (fd, m))
    (hfd : (t.sockets.find? fd).isSome) :
    (∃ u, t.recv p = .returned fd u) ∨ t.recv p = .waits fd ∧ t.Full fd := by
  have hqueue : (t.socketQueue.find? fd).isSome := by rw [h.keys, hfd]
  obtain ⟨q, hq⟩ := Option.isSome_iff_exists.mp hqueue
  unfold recv
  rw [hm]
  dsimp only
  rw [hq]
  dsimp only
  cases hpush : q.push p with
  | none =>
    refine Or.inr ⟨rfl, Or.inl ⟨q, hq, ?_⟩⟩
    exact (h.queues fd q hq).isfull_iff.mpr ((BlockingQueue.push_eq_none (h.queues fd q hq)).mp hpush)
  | some q' =>
    cases hunsolved : t.unSolvedSocket.push fd with
    | none =>
      refine Or.inr ⟨rfl, Or.inr ?_⟩
      exact h.unSolved.isfull_iff.mpr ((BlockingQueue.push_eq_none h.unSolved).mp hunsolved)
    | some => exact Or.inl ⟨_, rfl⟩

lemma exact_of_meant (h : t.Valid) (hmeant : ∃ fd, t.Meant p fd) (hfits : p.Fits) :
    t.Exact p := by
  refine ⟨fun _ => ?_, fun hnot => absurd hmeant hnot⟩
  obtain ⟨fd, hfd, hm⟩ := recvIPPacket_of_meant hfits hmeant
  obtain ⟨s, hs, -⟩ := id hfd
  refine ⟨fd, hfd, ?_⟩
  rcases recv_of_some h hm (by rw [hs]; rfl) with ⟨u, hu⟩ | hwaits
  · obtain ⟨hsockets, hqueue, hothers, hunsolved⟩ := queuedOn_of_recv h hu hm
    exact Or.inl ⟨u, hu, hsockets, hqueue, hothers, hunsolved⟩
  · exact Or.inr hwaits

/-- A packet that no socket is meant for is never dropped. -/
lemma not_exact_of_not_meant (h : t.Valid) (hmeant : ¬∃ fd, t.Meant p fd) : ¬t.Exact p := by
  intro hexact
  obtain ⟨fd, hrecv⟩ := hexact.dropped hmeant
  obtain ⟨m, -, -, -, hm, -⟩ := recv_eq_returned hrecv
  -- a packet that has been queued makes a queue longer
  obtain ⟨-, ⟨q, q', hq, hq', hcontents⟩, -⟩ := queuedOn_of_recv h hrecv hm
  rw [hq, Option.some.injEq] at hq'
  have hlen := congrArg List.length hcontents
  rw [hq', List.length_append, List.length_singleton] at hlen
  omega

/-- A packet longer than the buffer is written past its end, whatever sockets there are. -/
lemma recv_of_not_fits (hfits : ¬p.Fits) : t.recv p = .undefined := by
  rw [recv, recvIPPacket, if_pos hfits]

lemma fits_of_exact (hexact : t.Exact p) (hmeant : ∃ fd, t.Meant p fd) : p.Fits := by
  by_contra hfits
  obtain ⟨fd, -, ⟨u, hrecv, -⟩ | ⟨hrecv, -⟩⟩ := hexact.queued hmeant
  · rw [recv_of_not_fits hfits] at hrecv
    cases hrecv
  · rw [recv_of_not_fits hfits] at hrecv
    cases hrecv

/-- Whatever sockets there are: demultiplexing is exact for a packet exactly when some socket is
meant for it and it fits into the buffer. -/
theorem demultiplexing_exact (h : t.Valid) (p : Segment) :
    t.Exact p ↔ (∃ fd, t.Meant p fd) ∧ p.Fits := by
  constructor
  · intro hexact
    have hmeant : ∃ fd, t.Meant p fd := by
      by_contra hnot
      exact not_exact_of_not_meant h hnot hexact
    exact ⟨hmeant, fits_of_exact hexact hmeant⟩
  · rintro ⟨hmeant, hfits⟩
    exact exact_of_meant h hmeant hfits

end Tables

namespace Threads

variable {s : Threads} {p : Segment} {fd : ℤ} {u : Tables}

lemma Tidy.valid (h : Tidy s) : s.tables.Valid := ⟨h.keys, h.rings.queues, h.rings.unSolved⟩

/-- A call that returns is what the receive thread does when nothing comes between its steps. -/
theorem run_of_recv (hidle : s.pipeline.receiver = .idle) (h : s.tables.recv p = .returned fd u) :
    ∃ t, run step s [.receive p, .receiverStep, .receiverStep] = some t ∧ t.tables = u := by
  obtain ⟨m, q, q', unSolvedSocket, hm, hq, hq', hunsolved, rfl⟩ := Tables.recv_eq_returned h
  have hm : recvIPPacket s.kernel.sockets p = some (fd, m) := hm
  have hq : s.pipeline.socketQueue.find? fd = some q := hq
  have hunsolved : s.pipeline.unSolvedSocket.push fd = some unSolvedSocket := hunsolved
  refine ⟨⟨{ s.kernel with sockets := m }, { s.pipeline with
    socketQueue := s.pipeline.socketQueue.modify fd (fun _ => q')
    unSolvedSocket := unSolvedSocket
    receiver := .idle
    received := s.pipeline.received ++ [(fd, p)] }⟩, ?_, rfl⟩
  simp only [run_cons, run_nil, step, Pipeline.step, Pipeline.receiverStep, hidle, hm, hq, hq',
    hunsolved, Option.isSome_some, if_true, Option.bind_eq_bind, Option.bind_some]

end Threads

namespace Tables

/-- One connection to a server, on descriptor 100. -/
def oneConnection : Tables where
  sockets := OrdMap.empty.insert 100
    ((MySocket.create ⟨2, 1, 4, 3⟩ true).setStatus .estab)
  socketQueue := OrdMap.empty.insert 100 (.new 1000)
  unSolvedSocket := .new 2000

lemma oneConnection_valid : oneConnection.Valid where
  keys fd := by
    simp only [oneConnection, OrdMap.isSome_find?_insert, OrdMap.find?_empty]
    rfl
  queues fd q hq := by
    simp only [oneConnection, OrdMap.find?_insert, OrdMap.find?_empty] at hq
    split_ifs at hq
    obtain rfl := Option.some.inj hq
    exact BlockingQueue.wf_new 1000
  unSolved := BlockingQueue.wf_new 2000

/-- A segment of the connection. -/
theorem demultiplexing_exact_connection : oneConnection.Exact ⟨⟨1, 2, 3, 4⟩, 0, 0, 0, []⟩ :=
  (demultiplexing_exact oneConnection_valid _).mpr ⟨⟨100, _, rfl, rfl⟩, by decide⟩

/-- A segment from another port is queued on the connection too, and a SYN is written through the
past-the-end entry. -/
theorem demultiplexing_not_exact :
    (∃ u, oneConnection.recv ⟨⟨1, 2, 5, 4⟩, 0, 0, 0, []⟩ = .returned 100 u ∧
      ¬oneConnection.Exact ⟨⟨1, 2, 5, 4⟩, 0, 0, 0, []⟩) ∧
    oneConnection.recv ⟨⟨1, 2, 5, 4⟩, 0, 0, setSyn 0, []⟩ = .undefined ∧
      ¬oneConnection.Exact ⟨⟨1, 2, 5, 4⟩, 0, 0, setSyn 0, []⟩ := by
  have hmeant : ∀ flag, ¬∃ fd, oneConnection.Meant ⟨⟨1, 2, 5, 4⟩, 0, 0, flag, []⟩ fd := by
    rintro flag ⟨fd, s, hs, hmeant⟩
    simp only [oneConnection, OrdMap.find?_insert, OrdMap.find?_empty] at hs
    split_ifs at hs
    obtain rfl := Option.some.inj hs
    unfold MySocket.isMeant at hmeant
    split_ifs at hmeant
    · cases hmeant
    · have haddr : (⟨2, 1, 4, 3⟩ : Tuple4) = ⟨2, 1, 4, 5⟩ := beq_iff_eq.mp hmeant
      exact absurd haddr (by decide)
  exact ⟨⟨_, rfl, not_exact_of_not_meant oneConnection_valid (hmeant 0)⟩, rfl,
    not_exact_of_not_meant oneConnection_valid (hmeant _)⟩

end Tables

end ITCP
