import ITCP.Model.Closing
import ITCP.Proofs.OneWay
import ITCP.Proofs.States
import ITCP.Proofs.Teardown

/-!
# Orderly close

The FIN of a client is sent before the client writes FINWAIT1. When the answer of the server is
processed in between it is taken for that of an open connection, and the call of `close` can wait
forever. Whenever this does not happen, both ends finish.
-/

namespace ITCP
open Lib

def Segment.kind (p : Segment) : Kind :=
  if isFin p.flag then .fin else if isAck p.flag then .ack else .data

@[simp] lemma kind_data (buf : List UInt8) (info : Tuple4) (seq ack : UInt32) :
    (sendTCPPacket buf info seq ack 0).kind = .data :=
  (by decide : (if isFin 0 then Kind.fin else if isAck 0 then .ack else .data) = .data)

@[simp] lemma kind_ack (buf : List UInt8) (info : Tuple4) (seq ack : UInt32) :
    (sendTCPPacket buf info seq ack (setAck 0)).kind = .ack :=
  (by decide : (if isFin (setAck 0) then Kind.fin else if isAck (setAck 0) then .ack else .data) = .ack)

@[simp] lemma kind_fin (buf : List UInt8) (info : Tuple4) (seq ack : UInt32) :
    (sendTCPPacket buf info seq ack (setFin 0)).kind = .fin :=
  (by decide : (if isFin (setFin 0) then Kind.fin else if isAck (setFin 0) then .ack else .data) = .fin)

lemma Segment.kind_eq_fin {p : Segment} : p.kind = .fin ↔ isFin p.flag := by
  unfold Segment.kind
  split_ifs with hfin hack
  · exact ⟨fun _ => hfin, fun _ => rfl⟩
  · exact ⟨nofun, fun h => absurd h hfin⟩
  · exact ⟨nofun, fun h => absurd h hfin⟩

namespace MySocket

variable {s t : MySocket} {p : Segment} {tmp : UInt8} {out : List Segment}

/-- An ACK processed on the open socket has data sent again. -/
def resends (s : MySocket) (p : Segment) : Bool := s.role != .server && decide (p.ack < u32 s.sizep)

/-- The packet is not a SYN and goes to where `p` came from. -/
def Answers (p q : Segment) : Prop := q.info = p.info.mirror ∧ ¬isSyn q.flag

lemma answers_data (buf : List UInt8) (seq ack : UInt32) :
    Answers p (sendTCPPacket buf p.info.mirror seq ack 0) := ⟨rfl, (by decide : ¬isSyn 0 = true)⟩

lemma answers_ack (buf : List UInt8) (seq ack : UInt32) :
    Answers p (sendTCPPacket buf p.info.mirror seq ack (setAck 0)) :=
  ⟨rfl, (by decide : ¬isSyn (setAck 0) = true)⟩

lemma answers_fin (buf : List UInt8) (seq ack : UInt32) :
    Answers p (sendTCPPacket buf p.info.mirror seq ack (setFin 0)) :=
  ⟨rfl, (by decide : ¬isSyn (setFin 0) = true)⟩

lemma recvAck_kinds (h : s.recvAck p = some (t, out)) :
    out.map Segment.kind = (if s.resends p then [.data] else []) ∧ ∀ q ∈ out, Answers p q := by
  obtain ⟨hrole, -, rfl⟩ | ⟨hrole, -, ⟨hack, rfl⟩ | ⟨hlt, buf, rfl⟩⟩ := recvAck_eq_some h
  · simp [resends, hrole]
  · have hle : ¬p.ack < u32 s.sizep := UInt32.not_lt.mpr hack
    simp [resends, hle]
  · have hresends : s.resends p := by simp [resends, hrole, hlt]
    rw [if_pos hresends]
    exact ⟨by simp, by simpa using answers_data _ _ _⟩

lemma recvData_kinds (h : s.recvData p tmp = some (t, out)) :
    out.map Segment.kind = [.ack] ∧ ∀ q ∈ out, Answers p q := by
  obtain ⟨databuf, -, -, rfl⟩ := recvData_eq_some h
  exact ⟨by simp, by simpa using answers_ack _ _ _⟩

/-- What a packet other than a SYN does, by its kind. -/
structure Reacts (s : MySocket) (p : Segment) (t : MySocket) (out : List Segment) : Prop where
  react : (t.tcb.status, out.map Segment.kind) = react s.tcb.status p.kind (s.resends p)
  address : t.address = s.address
  role : t.tcb.role = s.tcb.role
  out : ∀ q ∈ out, Answers p q

lemma Reacts.status (h : Reacts s p t out) :
    t.tcb.status = (ITCP.react s.tcb.status p.kind (s.resends p)).1 := congrArg Prod.fst h.react

lemma Reacts.kinds (h : Reacts s p t out) :
    out.map Segment.kind = (ITCP.react s.tcb.status p.kind (s.resends p)).2 :=
  congrArg Prod.snd h.react

lemma readIPPacket_reacts (hs : s.tcb.status ≠ .synsent) (hsyn : ¬isSyn p.flag)
    (h : s.readIPPacket p tmp = some (t, out)) : Reacts s p t out := by
  have hfresh : ¬(s.tcb.status = .synsent ∧ s.tcb.role = .server) := fun hst => hs hst.1
  have hreads := readIPPacket_reads h
  rw [s.located_eq hfresh] at hreads
  cases hreads with
  | synAck hisSyn => exact absurd hisSyn hsyn
  | syn hsynOnly | crossing hsynOnly => exact absurd (Bool.and_eq_true_iff.mp hsynOnly).1 hsyn
  | fin _ hfin x flags hmove =>
    have hkind : p.kind = .fin := Segment.kind_eq_fin.mpr hfin
    obtain ⟨hst, rfl, rfl⟩ | ⟨hst, rfl, rfl⟩ | ⟨hst, rfl, rfl⟩ := mem_finMoves.mp hmove <;>
      exact ⟨by simp [hkind, hst, react, reply], rfl, rfl, by simp [reply, answers_ack, answers_fin]⟩
  | accAck _ hfin hack hst =>
    have hkind : p.kind = .ack := by rw [Segment.kind, if_neg hfin, if_pos hack]
    exact ⟨by simp [hkind, hst, react], rfl, rfl, by simp⟩
  | ack _ hfin hack x hmove =>
    have hkind : p.kind = .ack := by rw [Segment.kind, if_neg hfin, if_pos hack]
    obtain ⟨hst, rfl⟩ | ⟨hst, rfl⟩ | ⟨hst, rfl⟩ := mem_ackMoves.mp hmove <;>
      exact ⟨by simp [hkind, hst, react], rfl, rfl, by simp⟩
  | data _ hfin hack t out hread =>
    have hsame := recvTCPPacket_sameState hread
    unfold recvTCPPacket at hread
    split_ifs at hread with hisAck
    · have hkind : p.kind = .ack := by rw [Segment.kind, if_neg hfin, if_pos hisAck]
      obtain ⟨hkinds, hout⟩ := recvAck_kinds hread
      exact ⟨by rw [hsame.tcb, hkinds, hack hisAck, hkind]; rfl, hsame.address, by rw [hsame.tcb], hout⟩
    · have hkind : p.kind = .data := by rw [Segment.kind, if_neg hfin, if_neg hisAck]
      obtain ⟨hkinds, hout⟩ := recvData_kinds hread
      exact ⟨by rw [hsame.tcb, hkinds, hkind]; rfl, hsame.address, by rw [hsame.tcb], hout⟩
  | ignored hignores =>
    refine ⟨?_, rfl, rfl, by simp⟩
    rw [Ignores, if_neg hsyn] at hignores
    by_cases hfin : isFin p.flag
    · have hkind : p.kind = .fin := Segment.kind_eq_fin.mpr hfin
      rw [if_pos hfin] at hignores
      cases hx : s.tcb.status <;> simp_all [react]
    · rw [if_neg hfin] at hignores
      have hkind : p.kind = .ack := by rw [Segment.kind, if_neg hfin, if_pos hignores.1]
      cases hx : s.tcb.status <;> simp_all [react]

end MySocket

/-! ### One end -/

namespace Endpoint

variable {W W' : Endpoint} {e : LocalEvent} {p : Segment} {tmp : UInt8} {out : List Segment}

/-- A step of an end that processes no packet. -/
structure Calm (W : Endpoint) (e : LocalEvent) (W' : Endpoint) (out : List Segment) : Prop where
  tcb : W'.sock.tcb = W.sock.tcb
  address : W'.sock.address = W.sock.address
  inbox : W'.inbox = W.inbox
  packets : ∀ q ∈ out, q.info = W.sock.address ∧ ¬isSyn q.flag
  kinds : out.map Segment.kind = if e = .send then [.data] else []
  idle : W.pc = .idle → e.isWrite = false → e ≠ .send ∧ W'.pc = .idle

lemma calm_step {x : Side} (hprocess : ∀ i tmp, e ≠ .process i tmp) (he : Connection.Fifo (x, e))
    (h : W.step e = some (W', out)) : Calm W e W' out := by
  cases e with
  | mywrite buf =>
    simp only [step] at h
    split_ifs at h with hpc
    · cases h
    · obtain ⟨sock, hsock, h⟩ := Option.bind_eq_some_iff.mp h
      obtain ⟨databuf, -, hsock⟩ := Option.bind_eq_some_iff.mp hsock
      cases hsock
      cases h
      exact ⟨rfl, rfl, rfl, by simp, rfl, by simp [LocalEvent.isWrite]⟩
  | send =>
    simp only [step] at h
    split_ifs at h with hpc
    · cases h
    · obtain ⟨⟨sock, out⟩, hsock, h⟩ := Option.bind_eq_some_iff.mp h
      obtain ⟨buf, -, hsock⟩ := Option.bind_eq_some_iff.mp hsock
      cases hsock
      cases h
      refine ⟨rfl, rfl, rfl, fun q hq => ?_, by simp, fun hidle => ?_⟩
      · rw [List.mem_singleton.mp hq]
        exact ⟨rfl, (by decide : ¬isSyn 0 = true)⟩
      · rw [not_not.mp hpc] at hidle
        cases hidle
  | writeReturn =>
    simp only [step] at h
    split_ifs at h with hpc
    cases h
    exact ⟨rfl, rfl, rfl, by simp, rfl, fun _ _ => ⟨by simp, rfl⟩⟩
  | read nbyte =>
    simp only [step, wrapRead] at h
    obtain ⟨⟨buf, sock⟩, hread, h⟩ := Option.bind_eq_some_iff.mp h
    split_ifs at hread
    obtain ⟨buf', -, hread⟩ := Option.bind_eq_some_iff.mp hread
    cases hread
    cases h
    exact ⟨rfl, rfl, rfl, by simp, rfl, fun hidle _ => ⟨by simp, hidle⟩⟩
  | process i tmp => exact absurd rfl (hprocess i tmp)
  | drop | duplicate => exact absurd he id

/-- The end takes the first packet of its inbox. -/
lemma process_step (hs : W.sock.tcb.status ≠ .synsent)
    (hinbox : ∀ p ∈ W.inbox, p.info.mirror = W.sock.address ∧ ¬isSyn p.flag)
    (h : W.step (.process 0 tmp) = some (W', out)) : ∃ p rest, W.inbox = p :: rest ∧
      W'.inbox = rest ∧ W'.pc = W.pc ∧ MySocket.Reacts W.sock p W'.sock out := by
  obtain ⟨p, hp, h⟩ := Option.bind_eq_some_iff.mp h
  obtain ⟨⟨sock, out⟩, hdeliver, h⟩ := Option.bind_eq_some_iff.mp h
  cases h
  cases hlist : W.inbox with
  | nil =>
    rw [hlist] at hp
    cases hp
  | cons q rest =>
    rw [hlist] at hp
    obtain rfl : q = p := Option.some.inj hp
    obtain ⟨haddress, hsyn⟩ := hinbox q (hlist ▸ List.mem_cons_self)
    rw [deliver, if_pos haddress.symm] at hdeliver
    exact ⟨q, rest, rfl, rfl, rfl, MySocket.readIPPacket_reacts hs hsyn hdeliver⟩

/-- What both kinds of steps leave as it is. -/
structure Advances (W : Endpoint) (e : LocalEvent) (W' : Endpoint) (out : List Segment) : Prop where
  address : W'.sock.address = W.sock.address
  role : W'.sock.tcb.role = W.sock.tcb.role
  inbox : ∀ p ∈ W'.inbox, p ∈ W.inbox
  packets : ∀ q ∈ out, q.info = W.sock.address ∧ ¬isSyn q.flag
  idle : W.pc = .idle → e.isWrite = false → W'.pc = .idle

lemma advances_step {x : Side} (hs : W.sock.tcb.status ≠ .synsent)
    (hinbox : ∀ p ∈ W.inbox, p.info.mirror = W.sock.address ∧ ¬isSyn p.flag)
    (he : Connection.Fifo (x, e)) (h : W.step e = some (W', out)) : Advances W e W' out := by
  by_cases hprocess : ∀ i tmp, e ≠ .process i tmp
  · have hcalm := calm_step hprocess he h
    exact ⟨hcalm.address, by rw [hcalm.tcb], fun p hp => hcalm.inbox ▸ hp, hcalm.packets,
      fun hidle hwrite => (hcalm.idle hidle hwrite).2⟩
  · push Not at hprocess
    obtain ⟨i, tmp, rfl⟩ := hprocess
    obtain rfl : i = 0 := he
    obtain ⟨p, rest, hp, hrest, hpc, hreacts⟩ := process_step hs hinbox h
    refine ⟨hreacts.address, hreacts.role, fun q hq => ?_, fun q hq => ?_, fun hidle _ => ?_⟩
    · rw [hp]
      exact List.mem_cons_of_mem _ (hrest ▸ hq)
    · obtain ⟨hinfo, hsyn⟩ := hreacts.out q hq
      exact ⟨hinfo.trans (hinbox p (hp ▸ List.mem_cons_self)).1, hsyn⟩
    · rw [hpc, hidle]

end Endpoint

namespace Closing

variable {s t : Closing} {e : ClosingEvent}

/-- The kinds of what is on its way, and the status of the two ends. -/
def view (s : Closing) : Teardown where
  client := (s.conn .client).sock.tcb.status
  server := (s.conn .server).sock.tcb.status
  close := s.close .client
  toServer := (s.conn .server).inbox.map Segment.kind
  toClient := (s.conn .client).inbox.map Segment.kind

/-- The packets on their way belong to the connection, and no end writes any more that has called
`close`. -/
structure Wired (s : Closing) : Prop where
  mirrored : ∀ x, (s.conn x.other).sock.address = (s.conn x).sock.address.mirror
  inbox : ∀ x, ∀ p ∈ (s.conn x).inbox, p.info.mirror = (s.conn x).sock.address ∧ ¬isSyn p.flag
  idle : ∀ x, x = .server ∨ (s.close x).isSome → (s.conn x).pc = .idle
  client : (s.conn .client).sock.tcb.role = .client
  server : (s.conn .server).sock.tcb.role = .server
  close : s.close .server ≠ some .finSent

def headResends (E : Endpoint) : Bool := E.inbox.head?.any E.sock.resends

lemma headResends_cons {E : Endpoint} {p : Segment} {rest : List Segment} (h : E.inbox = p :: rest) :
    headResends E = E.sock.resends p := by
  rw [headResends, h]
  rfl

/-- The step of the teardown that a step of the two ends is. -/
def teardownEvent (s : Closing) : ClosingEvent → TeardownEvent
  | .conn .client .send => .send
  | .conn .client (.process _ _) => .client (headResends (s.conn .client))
  | .conn .server (.process _ _) => .server (headResends (s.conn .server))
  | .close .client _ => .close
  | .closeStatus .client => .closeStatus
  | .closeReturn .client => .closeReturn
  | _ => .skip

/-- Before FINWAIT1 has been written, the client processes neither the FIN of the server nor the ACK
in front of it, unless that has data sent again or data is still to be acknowledged behind the
FIN. -/
def harmless (s : Closing) : ClosingEvent → Bool
  | .conn .client (.process _ _) => s.close .client != some .finSent ||
    match (s.conn .client).inbox with
    | p :: q :: rest => !isFin p.flag && (!isFin q.flag || (s.conn .client).sock.resends p ||
        !rest.isEmpty || !(s.conn .server).inbox.isEmpty)
    | [p] => !isFin p.flag
    | [] => true
  | _ => true

lemma fifo_of_allowed {x : Side} {e : LocalEvent} (he : Allowed (.conn x e)) :
    Connection.Fifo (x, e) := by
  cases e with
  | mywrite buf => trivial
  | _ => exact he

lemma conn_eq_some {x : Side} {e : LocalEvent} (ht : s.step (.conn x e) = some t) :
    ¬(e.isWrite = true ∧ (s.close x).isSome = true) ∧ t.close = s.close ∧ ∃ out,
      (s.conn x).step e = some (t.conn x, out) ∧ t.conn x.other = (s.conn x.other).receive out := by
  simp only [step] at ht
  split_ifs at ht with hwrite
  obtain ⟨conn, hconn, ht⟩ := Option.bind_eq_some_iff.mp ht
  cases ht
  exact ⟨by simpa using hwrite, rfl, Connection.step_eq_some.mp hconn⟩

lemma wired_conn {x : Side} {e : LocalEvent} (h : Wired s)
    (hst : ∀ x, (s.conn x).sock.tcb.status ≠ .synsent) (he : Allowed (.conn x e))
    (ht : s.step (.conn x e) = some t) : Wired t := by
  obtain ⟨hwrite, hclose, out, hstep, hother⟩ := conn_eq_some ht
  have hadv := Endpoint.advances_step (hst x) (h.inbox x) (fifo_of_allowed he) hstep
  have haddress : ∀ y, (t.conn y).sock.address = (s.conn y).sock.address := fun y => by
    by_cases hy : y = x
    · rw [hy, hadv.address]
    · rw [Side.eq_other_of_ne hy, hother]
      rfl
  have hrole : ∀ y, (t.conn y).sock.tcb.role = (s.conn y).sock.tcb.role := fun y => by
    by_cases hy : y = x
    · rw [hy, hadv.role]
    · rw [Side.eq_other_of_ne hy, hother]
      rfl
  refine ⟨fun y => ?_, fun y p hp => ?_, fun y hy => ?_, ?_, ?_, ?_⟩
  · rw [haddress, haddress, h.mirrored]
  · rw [haddress]
    by_cases hyx : y = x
    · exact h.inbox y p (hyx ▸ hadv.inbox p (hyx ▸ hp))
    · rw [Side.eq_other_of_ne hyx, hother] at hp
      rw [Side.eq_other_of_ne hyx]
      rcases List.mem_append.mp hp with hp | hp
      · exact h.inbox _ p hp
      · obtain ⟨hinfo, hsyn⟩ := hadv.packets p hp
        exact ⟨by rw [hinfo, h.mirrored], hsyn⟩
  · rw [hclose] at hy
    have hidle := h.idle y hy
    by_cases hyx : y = x
    · subst hyx
      refine hadv.idle hidle (Bool.eq_false_iff.mpr fun hw => ?_)
      rcases hy with rfl | hy
      · cases e with
        | mywrite buf => cases he
        | _ => cases hw
      · exact hwrite ⟨hw, hy⟩
    · rw [Side.eq_other_of_ne hyx, hother]
      rw [Side.eq_other_of_ne hyx] at hidle
      exact hidle
  · rw [hrole, h.client]
  · rw [hrole, h.server]
  · rw [hclose]
    exact h.close

/-- A packet processed by the client is a step of the teardown. -/
lemma view_client {out : List Segment} {p : Segment} {rest : List Segment}
    (hclose : t.close = s.close) (hp : (s.conn .client).inbox = p :: rest)
    (hrest : (t.conn .client).inbox = rest)
    (hreacts : MySocket.Reacts (s.conn .client).sock p (t.conn .client).sock out)
    (hother : t.conn .server = (s.conn .server).receive out) :
    (view s).step (.client (headResends (s.conn .client))) = some (view t) := by
  simp only [view, Teardown.step, headResends_cons hp, hp, List.map_cons, hother, Endpoint.receive,
    List.map_append, hreacts.status, hreacts.kinds, hrest, hclose]

lemma view_server {out : List Segment} {p : Segment} {rest : List Segment}
    (hclose : t.close = s.close) (hp : (s.conn .server).inbox = p :: rest)
    (hrest : (t.conn .server).inbox = rest)
    (hreacts : MySocket.Reacts (s.conn .server).sock p (t.conn .server).sock out)
    (hother : t.conn .client = (s.conn .client).receive out) :
    (view s).step (.server (headResends (s.conn .server))) = some (view t) := by
  simp only [view, Teardown.step, headResends_cons hp, hp, List.map_cons, hother, Endpoint.receive,
    List.map_append, hreacts.status, hreacts.kinds, hrest, hclose]

/-- A step that changes no status and sends nothing does not show. -/
lemma view_calm {x : Side} {e : LocalEvent} (hclose : t.close = s.close)
    (hcalm : Endpoint.Calm (s.conn x) e (t.conn x) [])
    (hother : t.conn x.other = (s.conn x.other).receive []) : view t = view s := by
  rw [Endpoint.receive_nil] at hother
  cases x with
  | client =>
    have hserver : t.conn .server = s.conn .server := hother
    simp only [view, hclose, hcalm.tcb, hcalm.inbox, hserver]
  | server =>
    have hclient : t.conn .client = s.conn .client := hother
    simp only [view, hclose, hcalm.tcb, hcalm.inbox, hclient]

/-- A step of the connection is one of the teardown. -/
lemma view_conn {x : Side} {e : LocalEvent} (h : Wired s)
    (hst : ∀ x, (s.conn x).sock.tcb.status ≠ .synsent) (he : Allowed (.conn x e))
    (ht : s.step (.conn x e) = some t) :
    (view s).step (teardownEvent s (.conn x e)) = some (view t) := by
  obtain ⟨hwrite, hclose, out, hstep, hother⟩ := conn_eq_some ht
  by_cases hprocess : ∀ i tmp, e ≠ .process i tmp
  · have hcalm := Endpoint.calm_step hprocess (fifo_of_allowed he) hstep
    have hkinds := hcalm.kinds
    by_cases hsend : e = .send
    · subst hsend
      cases x with
      | server => exact absurd rfl (hcalm.idle (h.idle .server (Or.inl rfl)) rfl).1
      | client =>
        have hnone : s.close .client = none := by
          rw [← Option.not_isSome_iff_eq_none]
          exact fun hsome => (hcalm.idle (h.idle .client (Or.inr hsome)) rfl).1 rfl
        have hserver : t.conn .server = (s.conn .server).receive out := hother
        rw [if_pos rfl] at hkinds
        simp only [teardownEvent, view, Teardown.step, hnone, if_true, hserver, Endpoint.receive,
          List.map_append, hkinds, hcalm.tcb, hcalm.inbox, hclose]
    · rw [if_neg hsend, List.map_eq_nil_iff] at hkinds
      subst hkinds
      have hskip : teardownEvent s (.conn x e) = .skip := by
        cases e with
        | send => exact absurd rfl hsend
        | process i tmp => exact absurd rfl (hprocess i tmp)
        | mywrite | writeReturn | read | drop | duplicate => cases x <;> rfl
      rw [hskip, view_calm hclose hcalm hother]
      rfl
  · push Not at hprocess
    obtain ⟨i, tmp, rfl⟩ := hprocess
    obtain rfl : i = 0 := he
    obtain ⟨p, rest, hp, hrest, -, hreacts⟩ := Endpoint.process_step (hst x) (h.inbox x) hstep
    cases x with
    | client => exact view_client hclose hp hrest hreacts hother
    | server => exact view_server hclose hp hrest hreacts hother

/-- The calls of `close` leave the wiring as it is. -/
lemma Wired.of_calls (h : Wired s)
    (haddress : ∀ x, (t.conn x).sock.address = (s.conn x).sock.address)
    (hrole : ∀ x, (t.conn x).sock.tcb.role = (s.conn x).sock.tcb.role)
    (hpc : ∀ x, (t.conn x).pc = (s.conn x).pc)
    (hinbox : ∀ x, ∀ p ∈ (t.conn x).inbox, p ∈ (s.conn x).inbox ∨
      p.info.mirror = (s.conn x).sock.address ∧ ¬isSyn p.flag)
    (hclose : ∀ x, (t.close x).isSome → (s.close x).isSome ∨ (s.conn x).pc = .idle)
    (hserver : t.close .server ≠ some .finSent) : Wired t where
  mirrored x := by rw [haddress, haddress, h.mirrored]
  inbox x p hp := by
    rw [haddress]
    exact (hinbox x p hp).elim (h.inbox x p) id
  idle x hx := by
    rw [hpc]
    rcases hx with hx | hx
    · exact h.idle x (Or.inl hx)
    · exact (hclose x hx).elim (fun hx => h.idle x (Or.inr hx)) id
  client := by rw [hrole, h.client]
  server := by rw [hrole, h.server]
  close := hserver

lemma close_step {x : Side} {tmp : UInt8} (h : Wired s) (ht : s.step (.close x tmp) = some t) :
    Wired t ∧ (view s).step (teardownEvent s (.close x tmp)) = some (view t) := by
  simp only [step] at ht
  split_ifs at ht with hcall hrole
  · obtain rfl := Option.some.inj ht
    cases x with
    | client =>
      rw [h.client] at hrole
      cases hrole
    | server =>
      refine ⟨h.of_calls (fun _ => rfl) (fun _ => rfl) (fun _ => rfl) (fun _ p hp => Or.inl hp) ?_
        (by simp), rfl⟩
      rintro (_ | _) hsome
      · exact Or.inl hsome
      · exact Or.inr (h.idle .server (Or.inl rfl))
  · obtain rfl := Option.some.inj ht
    simp only [Bool.or_eq_true, bne_iff_ne, not_or, not_not, Option.not_isSome_iff_eq_none] at hcall
    cases x with
    | client =>
      refine ⟨h.of_calls ?_ ?_ ?_ ?_ ?_ h.close, ?_⟩
      · rintro (_ | _) <;> rfl
      · rintro (_ | _) <;> rfl
      · rintro (_ | _) <;> rfl
      · rintro (_ | _) p hp
        · exact Or.inl hp
        · refine (List.mem_append.mp hp).imp_right fun hp => ?_
          rw [List.mem_singleton.mp hp]
          exact ⟨(h.mirrored .client).symm, (by decide : ¬isSyn (setFin 0) = true)⟩
      · rintro (_ | _) hsome
        · exact Or.inr hcall.2
        · exact Or.inl hsome
      · simp [teardownEvent, view, Teardown.step, hcall.1, Endpoint.receive, MySocket.wrapCloseFin,
          Side.other]
    | server => exact absurd h.server hrole

lemma closeStatus_step {x : Side} (h : Wired s) (ht : s.step (.closeStatus x) = some t) :
    Wired t ∧ (view s).step (teardownEvent s (.closeStatus x)) = some (view t) := by
  simp only [step] at ht
  split_ifs at ht with hcall
  obtain rfl := Option.some.inj ht
  cases x with
  | client =>
    refine ⟨h.of_calls ?_ ?_ ?_ ?_ ?_ h.close, ?_⟩
    · rintro (_ | _) <;> rfl
    · rintro (_ | _) <;> rfl
    · rintro (_ | _) <;> rfl
    · rintro (_ | _) p hp <;> exact Or.inl hp
    · rintro (_ | _) hsome
      · exact Or.inl (by rw [hcall]; rfl)
      · exact Or.inl hsome
    · simp [teardownEvent, view, Teardown.step, hcall]
  | server => exact absurd hcall h.close

lemma closeReturn_step {x : Side} (h : Wired s) (ht : s.step (.closeReturn x) = some t) :
    Wired t ∧ (view s).step (teardownEvent s (.closeReturn x)) = some (view t) := by
  simp only [step] at ht
  split_ifs at ht with hcall
  obtain rfl := Option.some.inj ht
  have hsome : (s.close x).isSome := by rw [hcall]; rfl
  refine ⟨h.of_calls (fun _ => rfl) (fun _ => rfl) (fun _ => rfl) (fun _ p hp => Or.inl hp) ?_ ?_, ?_⟩
  · intro y hy
    by_cases hyx : y = x
    · exact Or.inl (hyx ▸ hsome)
    · exact Or.inl (by simpa [hyx] using hy)
  · cases x with
    | client => exact h.close
    | server => simp
  · cases x with
    | client => simp [teardownEvent, view, Teardown.step, hcall]
    | server => rfl

/-- Every step of the two ends is one of the teardown. -/
theorem teardown_step (h : Wired s) (hst : (view s).client ≠ .synsent ∧ (view s).server ≠ .synsent)
    (he : Allowed e) (ht : s.step e = some t) :
    Wired t ∧ (view s).step (teardownEvent s e) = some (view t) := by
  cases e with
  | conn x e =>
    have hst : ∀ x, (s.conn x).sock.tcb.status ≠ .synsent := by
      rintro (_ | _)
      exacts [hst.1, hst.2]
    exact ⟨wired_conn h hst he ht, view_conn h hst he ht⟩
  | close x tmp => exact close_step h ht
  | closeStatus x => exact closeStatus_step h ht
  | closeReturn x => exact closeReturn_step h ht

/-- What is harmless shows in the teardown. -/
lemma harmless_iff : s.harmless e ↔ (view s).Harmless (teardownEvent s e) := by
  cases e with
  | close x | closeStatus x | closeReturn x =>
    cases x <;> exact ⟨fun _ => trivial, fun _ => rfl⟩
  | conn x e =>
    cases x with
    | server => cases e <;> exact ⟨fun _ => trivial, fun _ => rfl⟩
    | client =>
      cases e with
      | process i tmp =>
        by_cases hclose : s.close .client = some .finSent
        · cases hinbox : (s.conn .client).inbox with
          | nil => simp [harmless, teardownEvent, Teardown.Harmless, view, hinbox]
          | cons p rest =>
            cases rest with
            | nil =>
              simp [harmless, teardownEvent, Teardown.Harmless, view, hclose, hinbox,
                Segment.kind_eq_fin]
            | cons q rest =>
              cases hq : isFin q.flag with
              | false =>
                simp [harmless, teardownEvent, Teardown.Harmless, view, hclose, hinbox, hq,
                  Segment.kind_eq_fin]
              | true =>
                simp [harmless, teardownEvent, Teardown.Harmless, view, hclose, hinbox, hq,
                  Segment.kind_eq_fin, headResends, or_assoc]
        · simp [harmless, teardownEvent, Teardown.Harmless, view, hclose]
      | _ => exact ⟨fun _ => trivial, fun _ => rfl⟩

lemma Established.wired (h : Established s) : Wired s where
  mirrored := h.fresh.mirrored
  inbox x p hp := by
    rw [h.fresh.inbox] at hp
    cases hp
  idle x _ := h.fresh.pc x
  client := h.client
  server := h.server
  close := by
    rw [h.close]
    nofun

lemma Established.phase (h : Established s) : (view s).Phase := by
  have hview : view s = ⟨.estab, .estab, none, [], []⟩ := by
    simp only [view, h.fresh.estab, h.fresh.inbox, h.close, List.map_nil]
  rw [hview]
  exact .transfer 0 0

lemma orderly_of_phase (h : (view s).Phase) : s.Orderly := by
  intro hclose hquiet
  obtain ⟨hclient, hserver⟩ := h.done (Option.isSome_iff_ne_none.mp hclose)
    (List.map_eq_nil_iff.mpr (hquiet .server)) (List.map_eq_nil_iff.mpr (hquiet .client))
  exact ⟨fun _ => hclient, fun _ => hserver⟩

/-- In every run in which the client processes the answer to its FIN only harmlessly before it writes
FINWAIT1, both calls of `close` have come to an end whenever nothing is left to do. In any other run
the call of the client never does. -/
theorem orderly_close {es : List ClosingEvent} (h : Established s) (hes : ∀ e ∈ es, Allowed e)
    (hrun : run step s es = some t) :
    (run (restrict (fun s e => s.harmless e = true) step) s es = some t → t.Orderly) ∧
    (run (restrict (fun s e => s.harmless e = true) step) s es ≠ some t →
      (t.conn .client).sock.tcb.status ≠ .timewait) := by
  have hphase : ∀ s e t, Allowed e → Wired s ∧ (view s).Phase → s.harmless e = true →
      s.step e = some t → Wired t ∧ (view t).Phase := by
    rintro s e t he ⟨hwired, hphase⟩ hharmless ht
    obtain ⟨hwired', hview⟩ := teardown_step hwired hphase.ne_synsent he ht
    exact ⟨hwired', hphase.step (harmless_iff.mp hharmless) hview⟩
  constructor
  · intro hrestrict
    have hinv := run_invariant_of (I := fun s => Wired s ∧ (view s).Phase) Allowed
      (fun s e t he hs ht => hphase s e t he hs (restrict_eq_some.mp ht).1 (restrict_eq_some.mp ht).2)
      hes ⟨h.wired, h.phase⟩ hrestrict
    exact orderly_of_phase hinv.2
  · intro hne
    have hcases := run_restrict_or (J := fun s => Wired s ∧ (view s).Lost) Allowed hphase
      ?_ ?_ hes ⟨h.wired, h.phase⟩ hrun
    · obtain ⟨-, hlost⟩ := hcases.resolve_left fun hrestrict => hne hrestrict.1
      exact hlost.ne_timewait
    · rintro s e t he ⟨hwired, hphase⟩ hharmless ht
      obtain ⟨hwired', hview⟩ := teardown_step hwired hphase.ne_synsent he ht
      exact ⟨hwired', hphase.lost (fun hc => hharmless (harmless_iff.mpr hc)) hview⟩
    · rintro s e t he ⟨hwired, hlost⟩ ht
      obtain ⟨hwired', hview⟩ := teardown_step hwired hlost.ne_synsent he ht
      exact ⟨hwired', hlost.step hview⟩

/-! ### The FIN, and FINWAIT1 too late -/

/-- The two ends of a new connection, before either has called `close`. -/
def opened : Closing := ⟨Connection.opened, fun _ => none⟩

lemma opened_established : Established opened := ⟨Connection.opened_fresh, rfl, rfl, fun _ => rfl⟩

/-- A byte is transferred, and the ACK for it is on its way when the client calls `close`. -/
def lateAck : List ClosingEvent :=
  [.close .server 0, .conn .client (.mywrite [7]), .conn .client .send, .conn .client .writeReturn,
    .close .client 0, .conn .server (.process 0 0), .conn .client (.process 0 0),
    .closeStatus .client, .conn .server (.process 0 0), .conn .client (.process 0 0),
    .conn .client (.process 0 0), .conn .server (.process 0 0), .closeReturn .client,
    .closeReturn .server]

theorem orderly_close_lateAck : ∃ s, run step opened lateAck = some s ∧ s.Orderly ∧
    ∀ x, s.close x = some .returned := by
  have h : run (restrict (fun s e => s.harmless e = true) step) opened lateAck = some _ := rfl
  have hes : ∀ e ∈ lateAck, Allowed e := by
    simp [lateAck, Allowed, Connection.Fifo]
  refine ⟨_, run_of_restrict h, (orderly_close opened_established hes (run_of_restrict h)).1 h, ?_⟩
  rintro (_ | _) <;> rfl

/-- The answer of the server is processed before FINWAIT1 is written: the client is never in
TIMEWAIT. -/
def lateStatus : List ClosingEvent :=
  [.close .server 0, .close .client 0, .conn .server (.process 0 0), .conn .client (.process 0 0),
    .conn .client (.process 0 0), .conn .server (.process 0 0), .conn .server (.process 0 0),
    .closeStatus .client]

theorem orderly_close_fails : Established opened ∧ (∀ e ∈ lateStatus, Allowed e) ∧ ∃ s,
    run step opened lateStatus = some s ∧ s.conn.Quiet ∧
    s.close .client = some (.spin .timewait) ∧
    (s.conn .client).sock.tcb.status = .finwait1 ∧ ¬s.Orderly := by
  have hs : run step opened lateStatus = some _ := rfl
  refine ⟨opened_established, by simp [lateStatus, Allowed, Connection.Fifo], _, hs, ?_, rfl, rfl,
    fun h => ?_⟩
  · rintro (_ | _) <;> rfl
  · have hdone := (h rfl (by rintro (_ | _) <;> rfl)).1 rfl
    cases hdone

end Closing

end ITCP
