import ITCP.Lib.Shadow
import ITCP.Proofs.Demux

/-!
# Reuse of a tuple

`recvIPPacket` takes the first socket that stores the tuple of a packet, whatever its status is. A
socket that has been closed stays in the table with its tuple, so that it captures the packets of a
later connection with the same tuple. What keeps the packets of live connections apart from it is
that no step puts a socket that is not live in front of one that is.
-/

namespace ITCP
open Lib

/-- The status of a connection that is being opened, is open, or is being closed. -/
def Status.live : Status → Bool
  | .synsent | .synrcvd | .estab | .finwait1 | .finwait2 | .closing | .lastack => true
  | _ => false

namespace MySocket

def live (s : MySocket) : Bool := s.tcb.status.live

/-- The packet opens a connection on the socket. -/
def begins (s : MySocket) (p : Segment) : Bool := s.tcb.status == .listen && p.isSynOnly

/-- The packet is the last one of the connection of the socket. -/
def ends (s : MySocket) (p : Segment) : Bool :=
  match s.tcb.status with
  | .finwait2 => !isSyn p.flag && isFin p.flag
  | .closing | .lastack => !isSyn p.flag && !isFin p.flag && isAck p.flag
  | _ => false

variable {s t : MySocket} {p : Segment} {tmp : UInt8} {out : List Segment}

lemma live_eq (h : t.tcb = s.tcb) : t.live = s.live := by rw [live, live, h]

lemma begins_iff : s.begins p ↔ s.tcb.status = .listen ∧ isSyn p.flag ∧ ¬isAck p.flag := by
  simp [begins, Segment.isSynOnly]

lemma ends_iff : s.ends p ↔ s.tcb.status = .finwait2 ∧ ¬isSyn p.flag ∧ isFin p.flag ∨
    (s.tcb.status = .closing ∨ s.tcb.status = .lastack) ∧
      ¬isSyn p.flag ∧ ¬isFin p.flag ∧ isAck p.flag := by
  unfold ends
  cases s.tcb.status <;> simp [and_assoc]

/-- A packet leaves the tuple of a socket alone, and makes it live or not in two ways only. -/
lemma readIPPacket_live (hs : ¬(s.tcb.status = .synsent ∧ s.tcb.role = .server))
    (h : s.readIPPacket p tmp = some (t, out)) :
    t.address = s.address ∧ t.live = (s.begins p || s.live && !s.ends p) := by
  have hsame : ¬s.begins p → ¬s.ends p → t.tcb = s.tcb →
      t.live = (s.begins p || s.live && !s.ends p) := by
    intro hbegins hends htcb
    rw [Bool.eq_false_iff.mpr hbegins, Bool.eq_false_iff.mpr hends, live_eq htcb]
    simp
  rw [begins_iff, ends_iff] at hsame
  have hreads := readIPPacket_reads h
  rw [s.located_eq hs] at hreads
  cases hreads with
  | synAck hsyn hack hst => exact ⟨rfl, by simp [live, Status.live, begins, ends, hst]⟩
  | syn hsyn hst => exact ⟨rfl, by simp [live, Status.live, begins, hst, hsyn]⟩
  | crossing hsyn hst => exact ⟨rfl, by simp [live, Status.live, begins, ends, hst]⟩
  | fin hsyn hfin x flags hmove =>
    obtain ⟨hst, rfl, -⟩ | ⟨hst, rfl, -⟩ | ⟨hst, rfl, -⟩ := mem_finMoves.mp hmove <;>
      exact ⟨rfl, by simp [live, Status.live, begins, ends, hst, hsyn, hfin]⟩
  | accAck hsyn hfin hack hst => exact ⟨rfl, by simp [live, Status.live, begins, ends, hst]⟩
  | ack hsyn hfin hack x hmove =>
    obtain ⟨hst, rfl⟩ | ⟨hst, rfl⟩ | ⟨hst, rfl⟩ := mem_ackMoves.mp hmove <;>
      exact ⟨rfl, by simp [live, Status.live, begins, ends, hst, hsyn, hfin, hack]⟩
  | data hsyn hfin hack t out hread =>
    have hdata := recvTCPPacket_sameState hread
    refine ⟨hdata.address, hsame (fun hbegins => hsyn hbegins.2.1) ?_ hdata.tcb⟩
    rintro (⟨-, -, hfin'⟩ | ⟨hst, -, -, hack'⟩)
    · exact hfin hfin'
    · have hestab := hack hack'
      rcases hst with hst | hst <;> rw [hst] at hestab <;> cases hestab
  | ignored hignores =>
    refine ⟨rfl, hsame ?_ ?_ rfl⟩
    · rintro ⟨hst, hsyn, hack⟩
      rw [Ignores, if_pos hsyn] at hignores
      exact hignores.2.elim hack (fun hlisten => hlisten hst)
    · rintro (⟨hst, hsyn, hfin⟩ | ⟨hst, hsyn, hfin, hack⟩)
      · rw [Ignores, if_neg hsyn, if_pos hfin, hst] at hignores
        exact hignores (by decide)
      · rw [Ignores, if_neg hsyn, if_neg hfin] at hignores
        rcases hst with hst | hst <;> rw [hst] at hignores <;> exact hignores.2 (by decide)

/-- The second packet of a handshake makes a socket in SYNSENT ready. -/
lemma readIPPacket_synAck (hfits : p.Fits) (hsyn : isSyn p.flag) (hack : isAck p.flag)
    (hst : s.tcb.status = .synsent) (tmp : UInt8) : ∃ t, s.readIPPacket p tmp = some (t, [reply p tmp (setAck 0)]) ∧
      t.tcb.status = .estab ∧ t.connReady := by
  rw [readIPPacket, if_neg (not_not_intro hfits)]
  by_cases hrole : s.tcb.status = .synsent ∧ s.tcb.role = .server
  · simp only [if_pos hrole, hsyn, hack, Bool.and_self, if_true, if_pos hst]
    exact ⟨_, rfl, rfl, rfl⟩
  · simp only [if_neg hrole, hsyn, hack, Bool.and_self, if_true, if_pos hst]
    exact ⟨_, rfl, rfl, rfl⟩

end MySocket

/-- A call of `recvIPPacket` queues the packet on the socket, when there is a place for it. -/
def Tables.Queues (t : Tables) (p : Segment) (fd : ℤ) : Prop :=
  (∃ u, t.recv p = .returned fd u ∧ t.QueuedOn u p fd) ∨ t.recv p = .waits fd ∧ t.Full fd

lemma Tables.queues_of_recv {t : Tables} {p : Segment} {fd : ℤ} (h : t.Valid) (hp : ¬p.isSynOnly)
    (hrecv : recvIPPacket t.sockets p = some (fd, t.sockets)) (hfd : (t.sockets.find? fd).isSome) :
    t.Queues p fd := by
  rcases recv_of_some h hrecv hfd with ⟨u, hu⟩ | hwaits
  · obtain ⟨hsockets, hqueue, hothers, hunsolved⟩ := queuedOn_of_recv h hu hrecv
    exact Or.inl ⟨u, hu, ⟨by rw [if_neg hp, hsockets], hqueue, hothers, hunsolved⟩⟩
  · exact Or.inr hwaits

lemma Tables.Queues.eq {t : Tables} {p : Segment} {fd fd' : ℤ} {m : SocketSet} (h : t.Queues p fd)
    (hrecv : recvIPPacket t.sockets p = some (fd', m)) : fd = fd' := by
  unfold Tables.Queues recv at h
  rw [hrecv] at h
  dsimp only at h
  split at h
  · rcases h with ⟨u, hu, -⟩ | ⟨hu, -⟩ <;> cases hu
  · split at h
    · rcases h with ⟨u, hu, -⟩ | ⟨hu, -⟩
      · exact (Received.returned.inj hu).1.symm
      · cases hu
    · rcases h with ⟨u, hu, -⟩ | ⟨hu, -⟩
      · cases hu
      · exact (Received.waits.inj hu).symm

namespace Host

/-! ### The socket table -/

/-- The packet that the processing thread takes next, and its socket. -/
def nextPacket (s : Host) : Option (ℤ × Segment) :=
  match s.threads.pipeline.processor with
  | .popFd => none
  | .popPacket fd => do
    let q ← s.socketQueue.find? fd
    let (p, _) ← q.pop
    some (fd, p)

/-- What a step can do to the socket table. -/
inductive TableStep (s : Host) : HostEvent → SocketSet → Prop
  | same (e) : TableStep s e s.sockets
  | socket (address b) : freeFd s.sockets ≠ 200 →
      TableStep s (.threads (.call (.socket address b)))
        (s.sockets.insert (freeFd s.sockets) (.create address b))
  | bind (fd address) : TableStep s (.threads (.call (.bind fd address)))
      (s.sockets.modify fd (fun v => (v.bind address).1))
  | listen (fd) : TableStep s (.threads (.call (.listen fd 1)))
      (s.sockets.modify fd (·.setStatus .listen))
  | accept (fd v) : s.sockets.find? fd = some v → TableStep s (.threads (.call (.accept fd)))
      (((s.sockets.insert (freeFd s.sockets) v).modify fd (·.setStatus .closed)).modify
        (freeFd s.sockets) (·.setStatus .listen))
  | acceptReturn (i call) : s.threads.kernel.calls[i]? = some call →
      TableStep s (.threads (.call (.acceptReturn i)))
        (s.sockets.modify call.socket (·.setStatus .listen))
  | syn (p fd v) : p.isSynOnly → s.sockets.search (fun _ v => v.listensFor p) = some (fd, v) →
      TableStep s (.threads (.receive p)) (s.sockets.modify fd (·.setAddress p.info.mirror))
  | process (tmp fd p v w out) : s.nextPacket = some (fd, p) → s.sockets.find? fd = some v →
      v.readIPPacket p tmp = some (w, out) →
      TableStep s (.threads (.processorStep tmp)) (s.sockets.modify fd (fun _ => w))
  | connect (fd address tmp v) : s.sockets.find? fd = some v → TableStep s (.connect fd address tmp)
      (s.sockets.modify fd (fun _ => (v.wrapConnect address tmp).1))
  | closeStatus (i call) : s.closes[i]? = some call → TableStep s (.closeStatus i)
      (s.sockets.modify call.fildes (·.setStatus .finwait1))

variable {s t : Host} {e : HostEvent}

lemma tableStep_call {e : KernelEvent} {threads : Threads}
    (ht : s.threads.step (.call e) = some threads) :
    TableStep s (.threads (.call e)) threads.kernel.sockets := by
  have hstep := Threads.callStep_step ht
  generalize threads.pipeline = pipeline at hstep
  generalize threads.kernel.sockets = m at hstep ⊢
  cases hstep with
  | same => exact .same _
  | socket address b hfull => exact .socket address b hfull
  | bind fd address => exact .bind fd address
  | listen fd => exact .listen fd
  | accept fd v hv => exact .accept fd v hv
  | acceptReturn i call hcall => exact .acceptReturn i call hcall

/-- The processing thread takes a socket, or it processes a packet and logs it. -/
lemma processorStep_cases {tmp : UInt8} {threads : Threads}
    (ht : s.threads.step (.processorStep tmp) = some threads) :
    s.nextPacket = none ∧ threads.kernel = s.threads.kernel ∨
      ∃ fd p v w out, s.nextPacket = some (fd, p) ∧
      s.sockets.find? fd = some v ∧ v.readIPPacket p tmp = some (w, out) ∧
      threads.kernel = { s.threads.kernel with
        sockets := s.sockets.modify fd (fun _ => w)
        log := s.threads.kernel.log ++ [⟨fd, p, v.tcb.status, w.tcb.status, out⟩] } := by
  obtain ⟨pipeline, hpipe, ht⟩ := Option.bind_eq_some_iff.mp ht
  split at ht
  · rename_i hpc
    obtain rfl := Option.some.inj ht
    exact Or.inl ⟨by rw [nextPacket, hpc], rfl⟩
  · rename_i fd hpc
    obtain ⟨kernel, hread, ht⟩ := Option.bind_eq_some_iff.mp ht
    obtain rfl := Option.some.inj ht
    obtain ⟨q, hq, hread⟩ := Option.bind_eq_some_iff.mp hread
    obtain ⟨⟨p, q'⟩, hpop, hread⟩ := Option.bind_eq_some_iff.mp hread
    obtain ⟨v, hv, hread⟩ := Option.bind_eq_some_iff.mp hread
    obtain ⟨⟨w, out⟩, hw, hread⟩ := Option.bind_eq_some_iff.mp hread
    obtain rfl := Option.some.inj hread
    refine Or.inr ⟨fd, p, v, w, out, ?_, hv, hw, rfl⟩
    unfold nextPacket
    rw [hpc]
    exact Option.bind_eq_some_iff.mpr ⟨q, hq, Option.bind_eq_some_iff.mpr ⟨(p, q'), hpop, rfl⟩⟩

lemma tableStep_threads {e : ThreadsEvent} {threads : Threads} (ht : s.threads.step e = some threads) :
    TableStep s (.threads e) threads.kernel.sockets := by
  cases e with
  | call e => exact tableStep_call ht
  | receive p =>
    obtain ⟨⟨fd, sockets⟩, hrecv, ht⟩ := Option.bind_eq_some_iff.mp ht
    obtain ⟨pipeline, hpipe, ht⟩ := Option.bind_eq_some_iff.mp ht
    obtain rfl := Option.some.inj ht
    by_cases hp : p.isSynOnly
    · obtain ⟨v, hsearch, rfl⟩ := search_of_recvIPPacket hp hrecv
      exact .syn p fd v hp hsearch
    · obtain ⟨rfl, -⟩ := (recvIPPacket_other hp (fits_of_recvIPPacket hrecv)).mp hrecv
      exact .same _
  | receiverStep =>
    obtain ⟨pipeline, hpipe, ht⟩ := Option.bind_eq_some_iff.mp ht
    obtain rfl := Option.some.inj ht
    exact .same _
  | processorStep tmp =>
    rcases processorStep_cases ht with ⟨-, hk⟩ | ⟨fd, p, v, w, out, hp, hv, hw, hk⟩
    · rw [hk]
      exact .same _
    · rw [hk]
      exact .process tmp fd p v w out hp hv hw

lemma tableStep_next (ht : s.next e = some t) : TableStep s e t.sockets := by
  obtain ⟨out, ht⟩ := next_eq_some.mp ht
  cases e with
  | threads e =>
    obtain ⟨threads, hthreads, ht⟩ := Option.bind_eq_some_iff.mp ht
    cases ht
    exact tableStep_threads hthreads
  | connect fd address tmp =>
    obtain ⟨v, hv, ht⟩ := Option.bind_eq_some_iff.mp ht
    cases ht
    exact .connect fd address tmp v hv
  | close fildes tmp =>
    obtain ⟨v, hv, ht⟩ := Option.bind_eq_some_iff.mp ht
    split_ifs at ht
    · cases ht
      exact .same _
    · cases ht
      exact .same _
  | closeStatus i =>
    obtain ⟨call, hcall, ht⟩ := Option.bind_eq_some_iff.mp ht
    split_ifs at ht
    cases ht
    exact .closeStatus i call hcall
  | closeReturn i =>
    obtain ⟨call, hcall, ht⟩ := Option.bind_eq_some_iff.mp ht
    obtain ⟨v, hv, ht⟩ := Option.bind_eq_some_iff.mp ht
    split_ifs at ht
    cases ht
    exact .same _

/-- No socket is in an active open as a server. -/
def Clients (s : Host) : Prop :=
  ∀ fd v, s.sockets.find? fd = some v → ¬(v.tcb.status = .synsent ∧ v.tcb.role = .server)

lemma clients_next (h : Clients s) (ht : s.next e = some t) : Clients t := by
  have hstep := tableStep_next ht
  unfold Clients at h ⊢
  generalize t.sockets = m at hstep ⊢
  cases hstep with
  | same => exact h
  | socket address b => exact OrdMap.forall_insert h (by simp [MySocket.create])
  | bind fd address =>
    refine OrdMap.forall_modify h fun v hv => ?_
    unfold MySocket.bind
    split_ifs
    · exact h fd v hv
    · simp
  | listen fd => exact OrdMap.forall_modify h (fun _ _ => by simp)
  | accept fd v hv =>
    exact OrdMap.forall_modify (OrdMap.forall_modify (OrdMap.forall_insert h (h fd v hv))
      (fun _ _ => by simp)) (fun _ _ => by simp)
  | acceptReturn i call => exact OrdMap.forall_modify h (fun _ _ => by simp)
  | syn p fd v => exact OrdMap.forall_modify h (fun v hv => h _ v hv)
  | process tmp fd p v w out hp hv hw =>
    refine OrdMap.forall_modify h fun _ _ => ?_
    rcases readIPPacket_cases (h fd v hv) hw with hsame | ⟨-, -, rfl, -⟩ | ⟨-, -, -, rfl, -⟩ | hmove
    · rw [hsame.tcb]
      exact h fd v hv
    · simp
    · simp
    · intro hst
      have hmoves := hmove.moves
      rw [hst.1] at hmoves
      simp [otherMoves] at hmoves
  | connect fd address tmp v =>
    exact OrdMap.forall_modify h (fun _ _ => by simp [MySocket.wrapConnect])
  | closeStatus i call => exact OrdMap.forall_modify h (fun _ _ => by simp)

/-! ### Live sockets in front -/

/-- The first socket that stores a tuple is live if some socket that stores it is. -/
def Unshadowed (s : Host) : Prop := s.sockets.Unshadowed MySocket.address MySocket.live

/-- The socket `fd` may store `address` as a live socket, or as one that is not. -/
def admits (s : Host) (fd : ℤ) (address : Tuple4) (live : Bool) : Bool :=
  s.sockets.admits MySocket.address MySocket.live fd address live

def keeps (s : Host) (fd : ℤ) (live : Bool) : Bool :=
  (s.sockets.find? fd).all (fun v => s.admits fd v.address live)

/-- The step puts no socket that is not live in front of the live ones with the same tuple. -/
def clear (s : Host) : HostEvent → Bool
  | .threads (.call (.bind fd address)) =>
    (s.sockets.find? fd).all (fun v => v.role != .unset || s.admits fd address false)
  | .threads (.call (.listen fd backlog)) => backlog != 1 || s.keeps fd false
  | .threads (.call (.accept fd)) => s.keeps fd false
  | .threads (.call (.acceptReturn i)) =>
    (s.threads.kernel.calls[i]?).all (fun call => s.keeps call.socket false)
  | .threads (.receive p) => !p.isSynOnly ||
    (s.sockets.search (fun _ v => v.listensFor p)).all (fun a => s.admits a.1 p.info.mirror false)
  | .threads (.processorStep _) => s.nextPacket.all (fun a => (s.sockets.find? a.1).all (fun v =>
    (!v.begins a.2 || s.admits a.1 v.address true) && (!v.ends a.2 || s.admits a.1 v.address false)))
  | .connect fd address _ => s.admits fd address true
  | .closeStatus i => (s.closes[i]?).all (fun call => s.keeps call.fildes true)
  | _ => true

lemma unshadowed_modify (h : Unshadowed s) {fd : ℤ} {f : MySocket → MySocket}
    (hf : ∀ v, s.sockets.find? fd = some v → s.admits fd (f v).address (f v).live) :
    (s.sockets.modify fd f).Unshadowed MySocket.address MySocket.live := by
  cases hv : s.sockets.find? fd with
  | none => exact h.modify_alike fun v hv' => absurd (hv.symm.trans hv') nofun
  | some v => exact (OrdMap.unshadowed_modify_iff h hv).mpr (hf v hv)

/-- The calls that write a status keep the tuple. -/
lemma unshadowed_setStatus (h : Unshadowed s) {fd : ℤ} {x : Status} (hc : s.keeps fd x.live) :
    (s.sockets.modify fd (·.setStatus x)).Unshadowed MySocket.address MySocket.live := by
  refine unshadowed_modify h fun v hv => ?_
  rw [keeps, hv, Option.all_some] at hc
  exact hc

/-- The new socket of `accept` has the largest descriptor, and only listens. -/
lemma unshadowed_accept (htidy : s.threads.Tidy) (h : Unshadowed s) {fd : ℤ} {v : MySocket}
    (hv : s.sockets.find? fd = some v) (hc : s.keeps fd false) :
    (((s.sockets.insert (freeFd s.sockets) v).modify fd (·.setStatus .closed)).modify
      (freeFd s.sockets) (·.setStatus .listen)).Unshadowed MySocket.address MySocket.live := by
  have hclosed := unshadowed_setStatus (x := .closed) h hc
  obtain ⟨h100, h200, -, hfree⟩ := freeFd_spec s.sockets
  cases hnew : s.sockets.find? (freeFd s.sockets) with
  | none =>
    have hlt : ∀ fd' u, s.sockets.find? fd' = some u → fd' < freeFd s.sockets := fun fd' u hu =>
      htidy.lt_of_none h100 hnew (Option.isSome_iff_exists.mpr ⟨u, hu⟩)
    have hne : fd ≠ freeFd s.sockets := (hlt fd v hv).ne
    have hlast : (((s.sockets.modify fd (·.setStatus .closed)).insert (freeFd s.sockets)
        (v.setStatus .listen))).Unshadowed MySocket.address MySocket.live := by
      refine hclosed.insert_last ?_ (fun fd' u hu => ?_) nofun
      · rw [OrdMap.find?_modify_of_ne _ _ hne.symm, hnew]
      · have hsome : (s.sockets.find? fd').isSome := by
          rw [← OrdMap.isSome_find?_modify _ fd _ (·.setStatus .closed), hu]
          rfl
        exact htidy.lt_of_none h100 hnew hsome
    refine hlast.of_find? fun fd' => ?_
    simp only [OrdMap.find?_modify, OrdMap.find?_insert, hnew, if_neg hne, if_neg hne.symm]
    split_ifs <;> rfl
  | some w =>
    have hlast : ((s.sockets.modify fd (·.setStatus .closed)).modify (freeFd s.sockets)
        (·.setStatus .listen)).Unshadowed MySocket.address MySocket.live := by
      refine hclosed.modify_last (fun fd' u hu => ?_) (fun _ _ => ⟨rfl, nofun⟩)
      have hfull : freeFd s.sockets = 200 := by
        by_contra hne
        rw [hfree hne] at hnew
        cases hnew
      rw [hfull]
      refine (htidy.range fd' ?_).2
      change (s.sockets.find? fd').isSome
      rw [← OrdMap.isSome_find?_modify _ fd _ (·.setStatus .closed), hu]
      rfl
    refine hlast.of_find? fun fd' => ?_
    simp only [OrdMap.find?_modify, OrdMap.find?_insert_of_some hnew]

lemma unshadowed_next (htidy : s.threads.Tidy) (hclients : Clients s) (h : Unshadowed s)
    (hc : s.clear e) (ht : s.next e = some t) : Unshadowed t := by
  have hstep := tableStep_next ht
  change t.sockets.Unshadowed MySocket.address MySocket.live
  generalize t.sockets = m at hstep ⊢
  cases hstep with
  | same => exact h
  | socket address b hfull =>
    obtain ⟨h100, -, -, hfree⟩ := freeFd_spec s.sockets
    refine h.insert_last (hfree hfull) (fun fd' u hu => ?_) nofun
    exact htidy.lt_of_none h100 (hfree hfull) (Option.isSome_iff_exists.mpr ⟨u, hu⟩)
  | bind fd address =>
    cases hv : s.sockets.find? fd with
    | none => exact h.modify_alike fun v hv' => absurd (hv.symm.trans hv') nofun
    | some v =>
      simp only [clear, hv, Option.all_some, Bool.or_eq_true, bne_iff_ne] at hc
      by_cases hrole : v.role ≠ .unset
      · refine h.modify_alike fun v' hv' => ?_
        obtain rfl := Option.some.inj (hv.symm.trans hv')
        rw [MySocket.bind, if_pos hrole]
        exact ⟨rfl, rfl⟩
      · refine unshadowed_modify h fun v' hv' => ?_
        obtain rfl := Option.some.inj (hv.symm.trans hv')
        rw [MySocket.bind, if_neg hrole]
        exact hc.resolve_left hrole
  | listen fd =>
    have hkeeps : s.keeps fd false := by simpa [clear] using hc
    exact unshadowed_setStatus h hkeeps
  | accept fd v hv => exact unshadowed_accept htidy h hv hc
  | acceptReturn i call hcall =>
    simp only [clear, hcall, Option.all_some] at hc
    exact unshadowed_setStatus h hc
  | syn p fd v hp hsearch =>
    simp only [clear, hp, hsearch, Option.all_some, Bool.not_true, Bool.false_or] at hc
    obtain ⟨hv, hlistens, -⟩ := OrdMap.search_eq_some.mp hsearch
    refine unshadowed_modify h fun v' hv' => ?_
    obtain rfl := Option.some.inj (hv.symm.trans hv')
    have hst := MySocket.status_of_listensFor hlistens
    have hdead : (v.setAddress p.info.mirror).live = false := by
      simp [MySocket.live, hst, Status.live]
    rw [hdead]
    exact hc
  | process tmp fd p v w out hp hv hw =>
    simp only [clear, hp, hv, Option.all_some, Bool.and_eq_true, Bool.or_eq_true,
      Bool.not_eq_true'] at hc
    obtain ⟨haddress, hlive⟩ := MySocket.readIPPacket_live (hclients fd v hv) hw
    by_cases hchange : v.begins p ∨ v.ends p
    · refine unshadowed_modify h fun _ _ => ?_
      rw [haddress, hlive]
      by_cases hbegins : v.begins p
      · rw [hbegins, Bool.true_or]
        exact hc.1.resolve_left (by rw [hbegins]; nofun)
      · rw [Bool.eq_false_iff.mpr hbegins, hchange.resolve_left hbegins, Bool.not_true, Bool.and_false,
          Bool.or_false]
        exact hc.2.resolve_left (by rw [hchange.resolve_left hbegins]; nofun)
    · rw [not_or] at hchange
      refine h.modify_alike fun v' hv' => ?_
      obtain rfl := Option.some.inj (hv.symm.trans hv')
      rw [Bool.eq_false_iff.mpr hchange.1, Bool.eq_false_iff.mpr hchange.2, Bool.not_false,
        Bool.and_true, Bool.false_or] at hlive
      exact ⟨haddress, hlive⟩
  | connect fd address tmp v hv => exact unshadowed_modify h fun _ _ => hc
  | closeStatus i call hcall =>
    simp only [clear, hcall, Option.all_some] at hc
    exact unshadowed_setStatus h hc

/-! ### Runs -/

/-- A packet for a live socket that fits into the buffers is queued on a live socket with its tuple,
and the SYN with an ACK for the only live one that stores the tuple, if it is in SYNSENT, completes
its handshake. -/
structure Reaches (s : Host) : Prop where
  queued : ∀ p : Segment, ¬p.isSynOnly → p.Fits →
    (∃ fd v, s.sockets.find? fd = some v ∧ v.live ∧ v.address = p.info.mirror) →
    ∃ fd v, s.sockets.find? fd = some v ∧ v.live ∧ v.address = p.info.mirror ∧
      s.threads.tables.Queues p fd
  connected : ∀ (p : Segment) fd v, isSyn p.flag → isAck p.flag → p.Fits → s.sockets.find? fd = some v →
    v.tcb.status = .synsent → v.address = p.info.mirror →
    (∀ fd' w, s.sockets.find? fd' = some w → w.live → w.address = p.info.mirror → fd' = fd) →
    s.threads.tables.Queues p fd ∧ ∀ tmp, ∃ w,
      v.readIPPacket p tmp = some (w, [MySocket.reply p tmp (setAck 0)]) ∧
      w.tcb.status = .estab ∧ w.connReady

lemma reaches_of_unshadowed (htidy : s.threads.Tidy) (h : Unshadowed s) : s.Reaches := by
  have hqueued : ∀ p : Segment, ¬p.isSynOnly → p.Fits →
      (∃ fd v, s.sockets.find? fd = some v ∧ v.live ∧ v.address = p.info.mirror) →
      ∃ fd v, s.sockets.find? fd = some v ∧ v.live ∧ v.address = p.info.mirror ∧
        s.threads.tables.Queues p fd := by
    rintro p hp hfits ⟨fd₁, v₁, h₁, hlive₁, haddress₁⟩
    obtain ⟨fd, v, hv, haddress, hfirst⟩ := OrdMap.exists_first h₁ haddress₁
    have hlive := h fd₁ v₁ fd v h₁ hlive₁ hv (haddress.trans haddress₁.symm)
      (fun i u hi hu => haddress₁ ▸ hfirst i u hi hu)
    have hrecv : recvIPPacket s.sockets p = some (fd, s.sockets) :=
      (recvIPPacket_other hp hfits).mpr ⟨rfl, Or.inl ⟨v, hv, haddress, hfirst⟩⟩
    exact ⟨fd, v, hv, hlive, haddress, Tables.queues_of_recv htidy.valid hp hrecv
      (Option.isSome_iff_exists.mpr ⟨v, hv⟩)⟩
  refine ⟨hqueued, fun p fd v hsyn hack hfits hv hst haddress honly => ?_⟩
  have hp : ¬p.isSynOnly := by simp [Segment.isSynOnly, hack]
  have hlive : v.live := by rw [MySocket.live, hst]; rfl
  obtain ⟨fd', w, hw, hlive', haddress', hqueues⟩ := hqueued p hp hfits ⟨fd, v, hv, hlive, haddress⟩
  obtain rfl := honly fd' w hw hlive' haddress'
  exact ⟨hqueues, fun tmp => MySocket.readIPPacket_synAck hfits hsyn hack hst tmp⟩

lemma unshadowed_of_reaches (h : s.Reaches) : Unshadowed s := by
  intro fd₁ v₁ fd v h₁ hlive₁ hv haddress hfirst
  have hp : ¬(⟨v₁.address.mirror, 0, 0, 0, []⟩ : Segment).isSynOnly :=
    (by decide : ¬(isSyn 0 && !isAck 0) = true)
  have hfits : (⟨v₁.address.mirror, 0, 0, 0, []⟩ : Segment).Fits := (by decide : 40 + 0 ≤ 2000)
  obtain ⟨fd', w, hw, hlive, -, hqueues⟩ :=
    h.queued ⟨v₁.address.mirror, 0, 0, 0, []⟩ hp hfits ⟨fd₁, v₁, h₁, hlive₁, rfl⟩
  have hrecv : recvIPPacket s.sockets ⟨v₁.address.mirror, 0, 0, 0, []⟩ = some (fd, s.sockets) :=
    (recvIPPacket_other hp hfits).mpr ⟨rfl, Or.inl ⟨v, hv, haddress, hfirst⟩⟩
  obtain rfl := hqueues.eq hrecv
  obtain rfl := Option.some.inj (hv.symm.trans hw)
  exact hlive

/-- Live sockets are reached exactly as long as none is shadowed. -/
lemma reaches_iff (htidy : s.threads.Tidy) : s.Reaches ↔ Unshadowed s :=
  ⟨unshadowed_of_reaches, reaches_of_unshadowed htidy⟩

/-- In every run whose steps put no socket that is not live in front of the live ones with the same
tuple, every state reached has its live sockets reached. -/
theorem live_sockets_reached {es : List HostEvent}
    (h : run (restrict (fun s e => s.clear e = true) next) init es = some s) : s.Reaches := by
  have hinv : s.threads.Tidy ∧ Clients s ∧ Unshadowed s := by
    refine run_invariant (I := fun s => s.threads.Tidy ∧ Clients s ∧ Unshadowed s) ?_
      ⟨tidy_init, fun _ _ hv => (nomatch hv), fun _ _ _ _ hv => (nomatch hv)⟩ h
    rintro s e t ⟨htidy, hclients, hs⟩ ht
    obtain ⟨hc, ht⟩ := restrict_eq_some.mp ht
    exact ⟨tidy_next htidy ht, clients_next hclients ht, unshadowed_next htidy hclients hs hc ht⟩
  exact (reaches_iff hinv.1).mpr hinv.2.2

/-- A packet arrives and is processed. -/
def arrival (p : Segment) : List HostEvent :=
  [.threads (.receive p), .threads .receiverStep, .threads .receiverStep,
    .threads (.processorStep 0), .threads (.processorStep 0)]

/-- A client connects, and closes its connection. -/
def closedOnce : List HostEvent :=
  [socketCall, .connect 100 ⟨1, 2, 3, 4⟩ 0] ++ arrival ⟨⟨2, 1, 4, 3⟩, 0, 1, setAck (setSyn 0), [0]⟩ ++
    [.close 100 0, .closeStatus 0] ++ arrival ⟨⟨2, 1, 4, 3⟩, 0, 1, setAck 0, [0]⟩ ++
    arrival ⟨⟨2, 1, 4, 3⟩, 0, 1, setFin 0, [0]⟩ ++ [.closeReturn 0]

/-- It connects again, to another port. -/
theorem live_sockets_reached_otherPort : ∃ s,
    run next init (closedOnce ++ [socketCall, .connect 101 ⟨1, 2, 3, 5⟩ 0]) = some s ∧ s.Reaches := by
  have h : run (restrict (fun s e => s.clear e = true) next) init
    (closedOnce ++ [socketCall, .connect 101 ⟨1, 2, 3, 5⟩ 0]) = some _ := rfl
  exact ⟨_, run_of_restrict h, live_sockets_reached h⟩

/-- It connects again with the same tuple: its SYN with an ACK is queued on the closed socket. -/
theorem live_sockets_missed : ∃ s,
    run next init (closedOnce ++ [socketCall, .connect 101 ⟨1, 2, 3, 4⟩ 0]) = some s ∧
    (s.sockets.find? 101).map (fun v => (v.tcb.status, v.address)) = some (.synsent, ⟨1, 2, 3, 4⟩) ∧
    (s.sockets.find? 100).map (fun v => v.tcb.status) = some .timewait ∧
    recvIPPacket s.sockets ⟨⟨2, 1, 4, 3⟩, 0, 1, setAck (setSyn 0), [0]⟩ = some (100, s.sockets) ∧
    ¬s.Reaches := by
  have hs : run next init (closedOnce ++ [socketCall, .connect 101 ⟨1, 2, 3, 4⟩ 0]) = some _ := rfl
  refine ⟨_, hs, rfl, rfl, rfl, fun h => ?_⟩
  obtain ⟨fd, v, hv, hlive, -, hqueues⟩ := h.queued ⟨⟨2, 1, 4, 3⟩, 0, 1, setAck (setSyn 0), [0]⟩
    (by decide) (by decide) ⟨101, _, rfl, rfl, rfl⟩
  obtain rfl : fd = 100 := hqueues.eq rfl
  obtain rfl := Option.some.inj hv
  cases hlive

end Host

end ITCP
