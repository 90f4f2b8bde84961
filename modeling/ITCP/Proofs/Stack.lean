import ITCP.Proofs.Internet
import ITCP.Proofs.Machine
import ITCP.Proofs.OneWay

/-!
# A stream through the whole stack

Two sockets of different hosts that are connected, with ways between the hosts that routes describe.
Whatever the other programs, sockets and hosts do, the two sockets and the packets between them do
what the two ends of a `Connection` do over a network that delivers in order. Hence what is written
on the one is what is read on the other.
-/

namespace ITCP
open Lib

/-! ### Segments on the way -/

/-- The segment in a TCP packet with this payload. -/
def Segment.ofPayload (src dest : UInt32) (buf : List UInt8) : Option Segment :=
  Segment.decode (constructIPPacket src dest L4_TCP buf 0)

namespace Segment

lemma ofPayload_encode (p : Segment) (size : UInt16) (other : UInt32) :
    ofPayload p.info.srcIP p.info.dstIP (p.encode size other) = some p :=
  decode_constructIPPacket p size other 0

/-- What is read from a packet depends on its addresses and its payload only. -/
lemma decode_eq_ofPayload {packet : List UInt8} {ip : IPFields} (h : parseIP packet = some ip) :
    decode packet = ofPayload ip.src ip.dst ip.payload := by
  obtain ⟨src, hsrc, h⟩ := Option.bind_eq_some_iff.mp h
  obtain ⟨dst, hdst, h⟩ := Option.bind_eq_some_iff.mp h
  obtain ⟨ttl, -, h⟩ := Option.bind_eq_some_iff.mp h
  obtain ⟨protocol, -, h⟩ := Option.bind_eq_some_iff.mp h
  obtain rfl := Option.some.inj h
  have hlen : 20 ≤ packet.length := word32_isSome.mp (hdst ▸ rfl)
  set other := constructIPPacket src dst L4_TCP (packet.drop 20) 0 with hother
  have hsrc' : word32 other 12 = some src := word32_le32 src (le32 dst ++ packet.drop 20)
  have hdst' : word32 other 16 = some dst := word32_le32 dst (packet.drop 20)
  have hdrop : other.drop 20 = packet.drop 20 := rfl
  have hlen' : other.length = packet.length := by
    rw [hother, constructIPPacket_length, List.length_drop]
    omega
  have hskip : ∀ k, other.drop (20 + k) = packet.drop (20 + k) := fun k => by
    rw [← List.drop_drop, hdrop, List.drop_drop]
  have h16 : ∀ k, word16 other (20 + k) = word16 packet (20 + k) := fun k => by
    rw [word16, word16, hskip]
  have h32 : ∀ k, word32 other (20 + k) = word32 packet (20 + k) := fun k => by
    rw [word32, word32, hskip]
  have hraw : rawSegment packet = rawSegment other := by
    unfold rawSegment
    rw [hsrc, hdst, hsrc', hdst', hlen', h16 0, h16 2, h32 4, h32 8, h16 12, hskip 20]
  rw [ofPayload, decode, decode, hraw]

end Segment

lemma IPFlow.decode_of_ofPacket {f : IPFlow} {packet buf : List UInt8} (h : f.ofPacket packet = some buf) :
    Segment.decode packet = Segment.ofPayload f.src f.dest buf := by
  obtain ⟨ip, hip, h⟩ := Option.bind_eq_some_iff.mp h
  unfold payload at h
  split_ifs at h with hflow
  rw [Segment.decode_eq_ofPayload hip, hflow.1, hflow.2.1, Option.some.inj h]

/-- The segment travels in a packet with the addresses of the flow. -/
def IPFlow.has (f : IPFlow) (q : Segment) : Bool := q.info.srcIP == f.src && q.info.dstIP == f.dest

lemma IPFlow.ofSending_sending {f : IPFlow} (hproto : f.proto = L4_TCP) (q : Segment) (size : UInt16)
    (other : UInt32) : f.ofSending (q.sending size other) =
      if f.has q then some (q.encode size other) else none := by
  rw [ofSending, Segment.sending, has]
  refine if_congr ?_ rfl rfl
  rw [Bool.and_eq_true, beq_iff_eq, beq_iff_eq]
  exact ⟨fun h => ⟨h.1, h.2.1⟩, fun h => ⟨h.1, h.2, hproto.symm⟩⟩

namespace Lines

variable {N : Type} [DecidableEq N] {wire : N → ℕ → List (N × ℕ)} {f : IPFlow} {i : N}
  {way : List (N × ℕ)} {s t : Lines N} {e : LinesEvent N}

/-- The event loses a packet of the flow. -/
def loses (f : IPFlow) (s : Lines N) : LinesEvent N → Bool
  | .lose i id k => (((s.line (i, id))[k]?).bind (f.heard (s.host i) id)).isSome
  | _ => false

lemma lostOf_step (he : s.loses f e = false) (hs : s.step wire e = some t) :
    t.lostOf f = s.lostOf f := by
  cases e with
  | deliver j id tmp =>
    obtain ⟨frame, rest, out, -, hout, rfl⟩ := step_deliver_eq_some.mp hs
    have hlost : (s.received (j, id) rest out).lostOf f = s.lostOf f :=
      lostOf_received (Node.recvFrame_cases hout).1
    exact hlost
  | lose j id k =>
    obtain ⟨frame, hk, rfl⟩ := step_lose_eq_some.mp hs
    rw [loses, hk, Option.bind_some, Option.isSome_eq_false_iff, Option.isNone_iff_eq_none] at he
    have hnone : [((j, id), frame)].filterMap (fun a => f.heard (s.host a.1.1) a.1.2 a.2) = [] :=
      List.filterMap_cons_none he
    exact List.filterMap_append.trans ((congrArg (List.append _) hnone).trans (List.append_nil _))
  | sendArp j tmp =>
    obtain ⟨sent, -, hs⟩ := Option.bind_eq_some_iff.mp hs
    exact Option.some.inj hs ▸ rfl
  | send j p =>
    obtain ⟨sent, -, hs⟩ := Option.bind_eq_some_iff.mp hs
    exact Option.some.inj hs ▸ rfl

/-- The way is in order, and nothing has been lost on it. -/
structure Carries (wire : N → ℕ → List (N × ℕ)) (f : IPFlow) (i : N) (way : List (N × ℕ))
    (s : Lines N) : Prop extends InOrder wire f i way s where
  lossless : s.lostOf f = []

lemma Carries.step (h : Carries wire f i way s) (hdest : f.dest ≠ 0xffffffff)
    (hproto : f.proto ≠ L3_MYARP) (hsteady : steady wire f i way s e = true)
    (hloses : s.loses f e = false) (hs : s.step wire e = some t) : Carries wire f i way t :=
  ⟨h.toInOrder.step hdest hproto hsteady hs, (lostOf_step hloses hs).trans h.lossless⟩

/-- What has been taken meanwhile was the first to come, and what has been sent will come last. -/
lemma Carries.along_eq (h : Carries wire f i way s) (h' : Carries wire f i way t)
    {old new : List (List UInt8)} (htaken : t.takenOf f = s.takenOf f ++ old)
    (hsent : t.sentOf f = s.sentOf f ++ new) :
    old ++ along (t.held f) way = along (s.held f) way ++ new := by
  have hs := h.arriving_eq h.lossless
  have ht := h'.arriving_eq h'.lossless
  rw [arriving] at hs ht
  rw [htaken, hsent, ← hs, List.append_assoc, List.append_assoc] at ht
  exact List.append_cancel_left ht

/-- A packet of the flow is sent by the first host of the way. -/
lemma Carries.send (h : Carries wire f i way s) (hdest : f.dest ≠ 0xffffffff)
    (hproto : f.proto ≠ L3_MYARP) {j : N} {p : Sending} (hsender : f.ofSending p ≠ none → j = i)
    (hlen : way.length ≤ p.ttl + 1) (httl : p.ttl ≤ 255) (hs : s.step wire (.send j p) = some t) :
    Carries wire f i way t := by
  refine h.step hdest hproto (Bool.and_eq_true_iff.mpr ⟨?_, ?_⟩) rfl hs
  · obtain ⟨sent, -, ht⟩ := Option.bind_eq_some_iff.mp hs
    rw [hs, Option.all_some, ← Option.some.inj ht, List.all_eq_true]
    exact fun j _ => beq_iff_eq.mpr rfl
  · cases hflow : f.ofSending p with
    | none => simp [hflow]
    | some buf => simp [hsender (by rw [hflow]; exact Option.some_ne_none _), hlen, httl]

end Lines

namespace Internet

variable {N : Type} [DecidableEq N] {wire : N → ℕ → List (N × ℕ)} {f : IPFlow} {i j : N}
  {way : List (N × ℕ)} {s t : Internet N}

/-- Nothing is sent or handed over but by the two calls that do so. -/
lemma step_logs {e : InternetEvent N} (hsend : ∀ i p, e ≠ .send i p)
    (hrecv : ∀ i tmp, e ≠ .recvFrame i tmp) (h : s.step wire e = some t) :
    t.taken = s.taken ∧ t.sent = s.sent := by
  cases e with
  | capture i id =>
    simp only [step] at h
    split at h
    · cases h
    · obtain ⟨station, -, h⟩ := Option.bind_eq_some_iff.mp h
      exact Option.some.inj h ▸ ⟨rfl, rfl⟩
  | push i id =>
    obtain ⟨station, -, h⟩ := Option.bind_eq_some_iff.mp h
    exact Option.some.inj h ▸ ⟨rfl, rfl⟩
  | recvFrame i tmp => exact absurd rfl (hrecv i tmp)
  | lose i id k =>
    obtain ⟨frame, -, h⟩ := Option.bind_eq_some_iff.mp h
    exact Option.some.inj h ▸ ⟨rfl, rfl⟩
  | sendArp i tmp =>
    obtain ⟨sent, -, h⟩ := Option.bind_eq_some_iff.mp h
    exact Option.some.inj h ▸ ⟨rfl, rfl⟩
  | send i p => exact absurd rfl (hsend i p)

lemma step_recvFrame {tmp : UInt8} {station : Station} {out : Node.Outcome}
    (hout : (s.station i).recvFrame tmp = some (station, out))
    (h : s.step wire (.recvFrame i tmp) = some t) :
    (∀ packet ∈ out.delivered, (i, packet) ∈ t.taken) ∧
      t.lines.takenOf f = s.lines.takenOf f ++ (out.delivered.bind f.ofPacket).toList ∧
      t.sent = s.sent := by
  obtain ⟨r, hr, h⟩ := Option.bind_eq_some_iff.mp h
  obtain rfl := Option.some.inj (hr.symm.trans hout)
  obtain rfl := Option.some.inj h
  refine ⟨fun packet hp => List.mem_append_right _ ?_, ?_, rfl⟩
  · exact List.mem_map_of_mem (Option.mem_toList.mpr hp)
  · refine List.filterMap_append.trans (congrArg (List.append _) ?_)
    rw [List.filterMap_map]
    cases out.delivered with
    | none => rfl
    | some packet =>
      rw [Option.bind_some]
      cases hflow : f.ofPacket packet with
      | none => exact List.filterMap_cons_none hflow
      | some buf => exact List.filterMap_cons_some hflow

lemma step_send {p : Sending} (h : s.step wire (.send i p) = some t) :
    t.station = s.station ∧ t.taken = s.taken ∧ t.sent = s.sent ++ [(i, p)] := by
  obtain ⟨sent, -, h⟩ := Option.bind_eq_some_iff.mp h
  exact Option.some.inj h ▸ ⟨rfl, rfl, rfl⟩

/-- The packets that the sockets of a host send get on the way behind those that are there. -/
lemma run_sends {out : List Segment} {unwritten : ℕ → UInt16 × UInt32}
    (hs : ∀ j, (s.station j).WF) (hcarries : Lines.Carries wire f i way s.lines)
    (hdest : f.dest ≠ 0xffffffff) (hproto : f.proto = L4_TCP) (hlen : way.length ≤ 11)
    (hout : ∀ q ∈ out, f.has q = true → j = i)
    (h : run (step wire) s (sends j out unwritten) = some t) :
    t.station = s.station ∧ t.taken = s.taken ∧ Lines.Carries wire f i way t.lines ∧
      ∃ new, t.lines.sentOf f = s.lines.sentOf f ++ new ∧
        new.filterMap (Segment.ofPayload f.src f.dest) = out.filter f.has := by
  induction out generalizing s unwritten with
  | nil =>
    obtain rfl := Option.some.inj h
    exact ⟨rfl, rfl, hcarries, [], (List.append_nil _).symm, rfl⟩
  | cons q out ih =>
    rw [sends, List.mapIdx_cons] at h
    obtain ⟨u, hu, h⟩ := run_cons_eq_some.mp h
    obtain ⟨hstation, htaken, hsent⟩ := step_send hu
    have hflow := IPFlow.ofSending_sending hproto q (unwritten 0).1 (unwritten 0).2
    obtain ⟨-, ⟨hnone, -⟩ | ⟨e', he', hlines⟩⟩ := step_lines hs hu
    · cases hnone
    obtain rfl := Option.some.inj he'
    have httl : (q.sending (unwritten 0).1 (unwritten 0).2).ttl = 10 := rfl
    have hcarries' : Lines.Carries wire f i way u.lines := by
      refine hcarries.send hdest (hproto ▸ by decide) (fun hne => ?_) (by rw [httl]; omega)
        (by rw [httl]; decide) hlines
      rw [hflow] at hne
      refine hout q List.mem_cons_self ?_
      by_contra hhas
      exact hne (if_neg hhas)
    obtain ⟨hstation', htaken', hcarries'', new, hnew, hsegments⟩ :=
      ih (fun j => hstation ▸ hs j) hcarries' (fun q hq => hout q (List.mem_cons_of_mem _ hq)) h
    refine ⟨hstation'.trans hstation, htaken'.trans htaken, hcarries'',
      (f.ofSending (q.sending (unwritten 0).1 (unwritten 0).2)).toList ++ new, ?_, ?_⟩
    · have hone : u.lines.sentOf f = s.lines.sentOf f ++
          (f.ofSending (q.sending (unwritten 0).1 (unwritten 0).2)).toList := by
        rw [Lines.sentOf, lines, hsent, List.filterMap_append]
        refine congrArg (List.append _) ?_
        cases hsome : f.ofSending (q.sending (unwritten 0).1 (unwritten 0).2) with
        | none => exact List.filterMap_cons_none hsome
        | some buf => exact List.filterMap_cons_some hsome
      rw [hnew, hone, List.append_assoc]
    · rw [List.filterMap_append, hsegments, hflow]
      by_cases hhas : f.has q
      · obtain ⟨hsrc, hdst⟩ := Bool.and_eq_true_iff.mp hhas
        rw [if_pos hhas, List.filter_cons_of_pos hhas, Option.toList_some]
        rw [← beq_iff_eq.mp hsrc, ← beq_iff_eq.mp hdst,
          List.filterMap_cons_some (Segment.ofPayload_encode q _ _)]
        rfl
      · rw [if_neg hhas, List.filter_cons_of_neg hhas]
        rfl

end Internet

/-! ### A connection between two hosts -/

/-- The tuple of an end, from that of the client. -/
def Side.tuple (address : Tuple4) : Side → Tuple4
  | .client => address
  | .server => address.mirror

@[simp] lemma Side.tuple_other (address : Tuple4) (x : Side) :
    x.other.tuple address = (x.tuple address).mirror := by
  cases x <;> rfl

/-- The two ends, and the ways of the packets that they send. -/
structure Circuit (N : Type) where
  host : Side → N
  fd : Side → ℤ
  address : Tuple4
  way : Side → List (N × ℕ)
  distinct : host .client ≠ host .server
  unicast : ∀ x : Side, (x.tuple address).dstIP ≠ 0xffffffff
  short : ∀ x : Side, (way x).length ≤ 11
  ends : ∀ x : Side, ∃ id, (way x).getLast? = some (host x.other, id)

namespace Circuit

variable {N : Type} (k : Circuit N)

def tuple (x : Side) : Tuple4 := x.tuple k.address

/-- The packets between the two hosts in one direction. -/
def flow (x : Side) : IPFlow := ⟨(k.tuple x).srcIP, (k.tuple x).dstIP, L4_TCP⟩

/-- The segments of the connection among payloads of the flow. -/
def segments (x : Side) (bufs : List (List UInt8)) : List Segment :=
  (bufs.filterMap (Segment.ofPayload (k.flow x).src (k.flow x).dest)).filter
    (fun p => decide (p.info = k.tuple x))

def onTheWay (x : Side) (s : Stack N) : List Segment :=
  k.segments x (along (s.net.lines.held (k.flow x)) (k.way x))

/-- The socket of an end gets a packet if and only if it is one of the connection. -/
def accepts (x : Side) (s : Stack N) (packet : List UInt8) : Bool :=
  (Segment.decode packet).all fun p =>
    ((s.machine (k.host x)).chooses p == some (k.fd x)) ==
      (((k.flow x.other).ofPacket packet).isSome && p.info == k.tuple x.other)

variable [DecidableEq N] (wire : N → ℕ → List (N × ℕ))

/-- On the way from an end the routes stay and nothing is lost, and the socket of the end is used as
`permits` says. Packets between the two hosts are sent by these hosts, and those of the connection by
the two sockets, and these get no others. -/
def allowsAt (x : Side) (s : Stack N) : StackEvent N → Bool
  | .net e =>
    (s.net.linesEvent e).all (fun e' =>
      Lines.steady wire (k.flow x) (k.host x) (k.way x) s.net.lines e' &&
        !s.net.lines.loses (k.flow x) e') &&
    match e with
    | .recvFrame i tmp => i != k.host x || ((s.net.station i).recvFrame tmp).all fun r =>
      r.2.delivered.all (k.accepts x s)
    | _ => true
  | .machine i e _ =>
    (i != k.host x || (s.machine i).permits (k.fd x) x e) &&
    ((s.machine i).step e).all fun r => r.2.all fun q =>
      (!(k.flow x).has q || i == k.host x) &&
        (q.info != k.tuple x || ((s.machine i).localEvent (k.fd x) e).isSome)

def allows (s : Stack N) (e : StackEvent N) : Bool :=
  k.allowsAt wire .client s e && k.allowsAt wire .server s e

/-- The hosts and the packets between them make up a connection. -/
structure Joins (c : Connection) (s : Stack N) : Prop where
  stations : ∀ i, (s.net.station i).WF
  carries : ∀ x, Lines.Carries wire (k.flow x) (k.host x) (k.way x) s.net.lines
  shows : ∀ x, (s.machine (k.host x)).Shows (k.fd x) x (c x) (k.onTheWay x.other s)
  address : ∀ x, (c x).sock.address = k.tuple x

variable {k wire} {s t : Stack N} {c : Connection}

lemma allows_side {e : StackEvent N} (h : k.allows wire s e = true) (x : Side) :
    k.allowsAt wire x s e = true := by
  obtain ⟨hclient, hserver⟩ := Bool.and_eq_true_iff.mp h
  cases x with
  | client => exact hclient
  | server => exact hserver

omit [DecidableEq N] in
lemma segments_append (x : Side) (bufs bufs' : List (List UInt8)) :
    k.segments x (bufs ++ bufs') = k.segments x bufs ++ k.segments x bufs' := by
  rw [segments, List.filterMap_append, List.filter_append]
  rfl

omit [DecidableEq N] in
lemma has_of_info {x : Side} {q : Segment} (h : q.info = k.tuple x) : (k.flow x).has q = true := by
  rw [IPFlow.has, h, flow, beq_self_eq_true, beq_self_eq_true, Bool.true_and]

omit [DecidableEq N] in
lemma filter_has (x : Side) (out : List Segment) :
    (out.filter (k.flow x).has).filter (fun p => decide (p.info = k.tuple x)) =
      out.filter (fun p => decide (p.info = k.tuple x)) := by
  rw [List.filter_filter]
  refine List.filter_congr fun q _ => ?_
  by_cases hq : q.info = k.tuple x
  · rw [decide_eq_true hq, has_of_info hq, Bool.true_and]
  · rw [decide_eq_false hq, Bool.false_and]

omit [DecidableEq N] in
lemma host_ne (x : Side) : k.host x.other ≠ k.host x := by
  cases x with
  | client => exact k.distinct.symm
  | server => exact k.distinct

/-! ### What a step does to the connection -/

lemma Joins.net (h : k.Joins wire c s) {e : InternetEvent N} {net : Internet N}
    (hallows : k.allows wire s (.net e) = true) (hnet : s.net.step wire e = some net) :
    (∀ i, (net.station i).WF) ∧
      ∀ x, Lines.Carries wire (k.flow x) (k.host x) (k.way x) net.lines := by
  obtain ⟨hwf, hlines⟩ := Internet.step_lines h.stations hnet
  refine ⟨hwf, fun x => ?_⟩
  obtain ⟨hkeeps, -⟩ := Bool.and_eq_true_iff.mp (allows_side hallows x)
  obtain ⟨-, hsame⟩ | ⟨e', he', hstep⟩ := hlines
  · rw [hsame]
    exact h.carries x
  · rw [he', Option.all_some, Bool.and_eq_true, Bool.not_eq_true'] at hkeeps
    exact (h.carries x).step (k.unicast x) (by decide : L4_TCP ≠ L3_MYARP) hkeeps.1 hkeeps.2 hstep

/-- The packets of the connection leave the way at its end, in the order in which they got on it. -/
lemma Joins.onTheWay (h : k.Joins wire c s) {x : Side} (old new : List (List UInt8))
    (hcarries : Lines.Carries wire (k.flow x) (k.host x) (k.way x) t.net.lines)
    (htaken : t.net.lines.takenOf (k.flow x) = s.net.lines.takenOf (k.flow x) ++ old)
    (hsent : t.net.lines.sentOf (k.flow x) = s.net.lines.sentOf (k.flow x) ++ new) :
    k.segments x old ++ k.onTheWay x t = k.onTheWay x s ++ k.segments x new := by
  have halong := (h.carries x).along_eq hcarries htaken hsent
  rw [Circuit.onTheWay, Circuit.onTheWay, ← segments_append, ← segments_append, halong]

/-- Frames move on, and nobody receives or sends anything. -/
lemma Joins.moves (h : k.Joins wire c s) {e : InternetEvent N} {net : Internet N}
    (hallows : k.allows wire s (.net e) = true) (hnet : s.net.step wire e = some net)
    (hsend : ∀ i p, e ≠ .send i p) (hrecv : ∀ i tmp, e ≠ .recvFrame i tmp) :
    k.Joins wire c { s with net := net } := by
  obtain ⟨hwf, hcarries⟩ := h.net hallows hnet
  obtain ⟨htaken, hsent⟩ := Internet.step_logs hsend hrecv hnet
  refine ⟨hwf, hcarries, fun x => ?_, h.address⟩
  have hway := h.onTheWay (t := { s with net := net }) [] [] (hcarries x.other)
    (by rw [List.append_nil, Lines.takenOf, Internet.lines, htaken]; rfl)
    (by rw [List.append_nil, Lines.sentOf, Internet.lines, hsent]; rfl)
  rw [show k.segments x.other [] = [] from rfl, List.nil_append, List.append_nil] at hway
  rw [hway]
  exact h.shows x

omit [DecidableEq N] in
/-- A packet that has been taken from the way to an end. -/
lemma segments_ofPacket {x : Side} {packet buf : List UInt8} {p : Segment}
    (hp : Segment.decode packet = some p) (hbuf : (k.flow x).ofPacket packet = some buf) :
    k.segments x [buf] = if p.info = k.tuple x then [p] else [] := by
  rw [segments, List.filterMap_cons_some ((IPFlow.decode_of_ofPacket hbuf).symm.trans hp),
    List.filterMap_nil]
  split_ifs with hinfo
  · exact List.filter_cons_of_pos (decide_eq_true hinfo)
  · exact List.filter_cons_of_neg (by simpa using hinfo)

/-- A host receives a frame. -/
lemma Joins.recvFrame (h : k.Joins wire c s) {i : N} {tmp : UInt8}
    (hallows : k.allows wire s (.net (.recvFrame i tmp)) = true)
    (hs : s.step wire (.net (.recvFrame i tmp)) = some t) : k.Joins wire c t := by
  obtain ⟨⟨station, out⟩, hout, hs⟩ := Option.bind_eq_some_iff.mp hs
  obtain ⟨net, hnet, hs⟩ := Option.bind_eq_some_iff.mp hs
  obtain ⟨m, hm, hs⟩ := Option.bind_eq_some_iff.mp hs
  obtain rfl := Option.some.inj hs
  obtain ⟨hwf, hcarries⟩ := h.net hallows hnet
  set t : Stack N := ⟨net, Function.update s.machine i m⟩
  refine ⟨hwf, hcarries, fun x => ?_, h.address⟩
  obtain ⟨hmem, htaken, hsent⟩ := Internet.step_recvFrame (f := k.flow x.other) hout hnet
  have hway := h.onTheWay (t := t) _ [] (hcarries x.other) htaken
    (by rw [List.append_nil, Lines.sentOf, Internet.lines, hsent]; rfl)
  rw [show k.segments x.other [] = [] from rfl, List.append_nil] at hway
  obtain ⟨id, hlast⟩ := k.ends x.other
  rw [Side.other_other] at hlast
  by_cases hi : i = k.host x
  · subst hi
    have hmachine : t.machine (k.host x) = m := Function.update_self _ _ _
    rw [hmachine]
    obtain ⟨-, haccepts⟩ := Bool.and_eq_true_iff.mp (allows_side hallows x)
    dsimp only at haccepts
    rw [bne_self_eq_false, Bool.false_or, hout, Option.all_some] at haccepts
    cases hdelivered : out.delivered with
    | none =>
      rw [hdelivered] at hm hway
      rw [Machine.ipCallback_none hm, show k.onTheWay x.other t = _ from hway]
      exact h.shows x
    | some packet =>
      rw [hdelivered] at hm hway haccepts
      obtain ⟨p, hp, hother, hself⟩ := (h.shows x).ipCallback hm
      rw [Option.all_some, accepts, hp, Option.all_some, beq_iff_eq] at haccepts
      rw [Option.bind_some] at hway
      cases hbuf : (k.flow x.other).ofPacket packet with
      | none =>
        rw [hbuf, Option.isSome_none, Bool.false_and, beq_eq_false_iff_ne] at haccepts
        rw [hbuf] at hway
        rw [show k.onTheWay x.other t = _ from hway]
        exact hother haccepts
      | some buf =>
        rw [hbuf, Option.isSome_some, Bool.true_and] at haccepts
        rw [hbuf, Option.toList_some, segments_ofPacket hp hbuf] at hway
        by_cases hinfo : p.info = k.tuple x.other
        · rw [if_pos hinfo] at hway
          rw [hinfo, beq_self_eq_true, beq_iff_eq] at haccepts
          exact hself haccepts _ hway.symm
        · rw [if_neg hinfo] at hway
          rw [beq_eq_false_iff_ne.mpr hinfo, beq_eq_false_iff_ne] at haccepts
          rw [show k.onTheWay x.other t = _ from hway]
          exact hother haccepts
  · have hmachine : t.machine (k.host x) = s.machine (k.host x) :=
      Function.update_of_ne (Ne.symm hi) _ _
    have hnone : out.delivered.bind (k.flow x.other).ofPacket = none := by
      rw [Option.bind_eq_none_iff]
      intro packet hp
      by_contra hne
      obtain ⟨id', hlast'⟩ := (hcarries x.other).taken _ (hmem packet hp) hne
      exact hi (Prod.mk.inj (Option.some.inj (hlast'.symm.trans hlast))).1
    rw [hnone] at hway
    rw [hmachine, show k.onTheWay x.other t = _ from hway]
    exact h.shows x

/-- A host does something for its sockets. -/
lemma Joins.machine (h : k.Joins wire c s) {i : N} {e : MachineEvent}
    {unwritten : ℕ → UInt16 × UInt32} (hallows : k.allows wire s (.machine i e unwritten) = true)
    (hs : s.step wire (.machine i e unwritten) = some t) : k.Joins wire c t ∨
      ∃ x le d, Connection.OneWay .client (x, le) ∧ Connection.Fifo (x, le) ∧
        c.step (x, le) = some d ∧ k.Joins wire d t := by
  obtain ⟨⟨m, out⟩, hm, hs⟩ := Option.bind_eq_some_iff.mp hs
  obtain ⟨net, hnet, hs⟩ := Option.bind_eq_some_iff.mp hs
  obtain rfl := Option.some.inj hs
  set t : Stack N := ⟨net, Function.update s.machine i m⟩
  have hallow : ∀ x, (i = k.host x → (s.machine i).permits (k.fd x) x e = true) ∧
      ∀ q ∈ out, ((k.flow x).has q = true → i = k.host x) ∧
        (q.info = k.tuple x → ((s.machine i).localEvent (k.fd x) e).isSome) := fun x => by
    obtain ⟨hpermits, hsends⟩ := Bool.and_eq_true_iff.mp (allows_side hallows x)
    rw [hm, Option.all_some, List.all_eq_true] at hsends
    refine ⟨fun hi => ?_, fun q hq => ⟨fun hhas => ?_, fun hinfo => ?_⟩⟩
    · simpa [hi] using hpermits
    · simpa [hhas] using (Bool.and_eq_true_iff.mp (hsends q hq)).1
    · simpa [hinfo] using (Bool.and_eq_true_iff.mp (hsends q hq)).2
  have hrun : ∀ x, net.station = s.net.station ∧
      Lines.Carries wire (k.flow x) (k.host x) (k.way x) net.lines ∧
      k.onTheWay x t = k.onTheWay x s ++ out.filter (fun q => decide (q.info = k.tuple x)) := by
    intro x
    obtain ⟨hstation, htaken, hcarries, new, hsent, hnew⟩ := Internet.run_sends h.stations
      (h.carries x) (k.unicast x) rfl (k.short x) (fun q hq => ((hallow x).2 q hq).1) hnet
    refine ⟨hstation, hcarries, ?_⟩
    have hway := h.onTheWay (t := t) [] _ hcarries
      (by rw [List.append_nil, Lines.takenOf, Internet.lines, htaken]; rfl) hsent
    rw [show k.segments x [] = [] from rfl, List.nil_append] at hway
    rw [hway, segments, hnew, filter_has]
  have hstations : ∀ j, (net.station j).WF := (hrun .client).1 ▸ h.stations
  have hmachine : t.machine i = m := Function.update_self _ _ _
  have hrest : ∀ j, j ≠ i → t.machine j = s.machine j := fun j hj => Function.update_of_ne hj _ _
  by_cases hacts : ∃ x, i = k.host x ∧ ((s.machine i).localEvent (k.fd x) e).isSome
  · -- the packets that the socket sends get on the way to the other end
    obtain ⟨x, rfl, hsome⟩ := hacts
    obtain ⟨le, hle⟩ := Option.isSome_iff_exists.mp hsome
    obtain ⟨how, hfifo, E', hE, hshows, haddress, hinfo⟩ :=
      (h.shows x).acts ((hallow x).1 rfl) hle hm
    rw [h.address x] at haddress hinfo
    have hall : out.filter (fun q => decide (q.info = k.tuple x)) = out :=
      List.filter_eq_self.mpr fun q hq => decide_eq_true (hinfo q hq)
    have hnone : out.filter (fun q => decide (q.info = k.tuple x.other)) = [] :=
      List.filter_eq_nil_iff.mpr fun q hq hq' => host_ne x
        (((hallow x.other).2 q hq).1 (has_of_info (of_decide_eq_true hq'))).symm
    have hto : k.onTheWay x t = k.onTheWay x s ++ out := by rw [(hrun x).2.2, hall]
    have hfrom : k.onTheWay x.other t = k.onTheWay x.other s := by
      rw [(hrun x.other).2.2, hnone, List.append_nil]
    set d : Connection := Function.update (Function.update c x E') x.other ((c x.other).receive out)
    have hself : d x = E' :=
      (Function.update_of_ne (Side.ne_other x) _ _).trans (Function.update_self _ _ _)
    have hother : d x.other = (c x.other).receive out := Function.update_self _ _ _
    refine Or.inr ⟨x, le, d, how, hfifo, Connection.step_eq_some.mpr ⟨out, hself ▸ hE, hother⟩,
      hstations, fun y => (hrun y).2.1, fun y => ?_, fun y => ?_⟩
    · by_cases hy : y = x
      · rw [hy, hself, hmachine, hfrom]
        exact hshows
      · obtain rfl := Side.eq_other_of_ne hy
        rw [hother, hrest _ (host_ne x), Side.other_other, hto]
        have hthere := h.shows x.other
        rw [Side.other_other] at hthere
        refine hthere.receive fun q hq => ?_
        rw [hinfo q hq, h.address, tuple, tuple, Side.tuple_other]
    · by_cases hy : y = x
      · rw [hy, hself, haddress]
      · obtain rfl := Side.eq_other_of_ne hy
        rw [hother]
        exact h.address x.other
  · have hnone : ∀ x, k.onTheWay x t = k.onTheWay x s := fun x => by
      have hfilter : out.filter (fun q => decide (q.info = k.tuple x)) = [] := by
        refine List.filter_eq_nil_iff.mpr fun q hq hq' => hacts ⟨x, ?_⟩
        have hinfo : q.info = k.tuple x := of_decide_eq_true hq'
        exact ⟨((hallow x).2 q hq).1 (has_of_info hinfo), ((hallow x).2 q hq).2 hinfo⟩
      rw [(hrun x).2.2, hfilter, List.append_nil]
    refine Or.inl ⟨hstations, fun x => (hrun x).2.1, fun x => ?_, h.address⟩
    rw [hnone]
    by_cases hi : i = k.host x
    · subst hi
      rw [hmachine]
      refine (h.shows x).stutter ((hallow x).1 rfl) ?_ hm
      exact Option.not_isSome_iff_eq_none.mp fun hsome => hacts ⟨x, rfl, hsome⟩
    · rw [hrest _ (Ne.symm hi)]
      exact h.shows x

/-- Every step is a step of the connection, or nothing for it. -/
theorem Joins.step {e : StackEvent N} (h : k.Joins wire c s) (hallows : k.allows wire s e = true)
    (hs : s.step wire e = some t) : k.Joins wire c t ∨
      ∃ x le d, Connection.OneWay .client (x, le) ∧ Connection.Fifo (x, le) ∧
        c.step (x, le) = some d ∧ k.Joins wire d t := by
  cases e with
  | machine i e unwritten => exact h.machine hallows hs
  | net e =>
    cases e with
    | recvFrame i tmp => exact Or.inl (h.recvFrame hallows hs)
    | send i p => cases hs
    | capture | push | lose | sendArp =>
      obtain ⟨net, hnet, hs⟩ := Option.bind_eq_some_iff.mp hs
      obtain rfl := Option.some.inj hs
      exact Or.inl (h.moves hallows hnet nofun nofun)

/-! ### Runs -/

/-- The connection is open, nothing of it is on its way and nothing has been transferred yet. -/
structure Opened (k : Circuit N) (wire : N → ℕ → List (N × ℕ)) (s : Stack N) : Prop where
  stations : ∀ i, (s.net.station i).WF
  leads : ∀ x, Way s.net.lines.host wire (k.flow x).dest (k.host x) (k.way x)
  held : ∀ x p, s.net.lines.held (k.flow x) p = []
  taken : ∀ x, s.net.lines.takenOf (k.flow x) = s.net.lines.sentOf (k.flow x)
  lossless : ∀ x, s.net.lines.lostOf (k.flow x) = []
  receivers : ∀ x, ∀ a ∈ s.net.taken, (k.flow x).ofPacket a.2 ≠ none → a.1 = k.host x.other
  holds : ∀ x, ∃ l, (s.machine (k.host x)).pipeline.Holds l
  sockets : ∀ x, ∃ v, (s.machine (k.host x)).sockets.find? (k.fd x) = some v ∧
    v.address = k.tuple x ∧ v.tcb.status = .estab ∧ v.readp = 0 ∧ v.writep = 0 ∧ v.sizep = 0
  queued : ∀ x, (s.machine (k.host x)).queued (k.fd x) = []
  writes : ∀ x, k.fd x ∉ (s.machine (k.host x)).streams.writes
  spins : ∀ x, k.fd x ∉ (s.machine (k.host x)).spins
  reads : ∀ x, (s.machine (k.host x)).readsOn (k.fd x) = []
  written : ∀ x, (s.machine (k.host x)).writtenOn (k.fd x) = []
  returned : ∀ x, (s.machine (k.host x)).returnedOn (k.fd x) = []

lemma Opened.carries (h : k.Opened wire s) (x : Side) :
    Lines.Carries wire (k.flow x) (k.host x) (k.way x) s.net.lines := by
  have halong : along (s.net.lines.held (k.flow x)) (k.way x) = [] :=
    along_eq_nil.mpr fun p _ => h.held x p
  have harriving : s.net.lines.arriving (k.flow x) (k.way x) = s.net.lines.sentOf (k.flow x) := by
    rw [Lines.arriving, halong, List.append_nil, h.taken]
  refine ⟨⟨h.leads x, fun p _ frame hframe hne => ?_, fun p _ => h.held x p, ?_, ?_,
    fun a ha hne => ?_⟩, h.lossless x⟩
  · exact absurd (List.filterMap_eq_nil_iff.mp (h.held x p) frame hframe) hne
  · rw [harriving]
  · rw [harriving, h.lossless, List.append_nil]
  · rw [h.receivers x a ha hne]
    exact k.ends x

lemma Opened.onTheWay (h : k.Opened wire s) (x : Side) : k.onTheWay x s = [] := by
  rw [Circuit.onTheWay, along_eq_nil.mpr fun p _ => h.held x p]
  rfl

/-- Nothing of the connection is on its way. -/
def Quiet (k : Circuit N) (s : Stack N) : Prop :=
  ∀ x, k.onTheWay x s = [] ∧ (s.machine (k.host x)).queued (k.fd x) = []

/-- What a host does to have a packet processed that its main loop has received. -/
def processed {N : Type} (i : N) : List (StackEvent N) :=
  [.receiverStep, .receiverStep, .processorStep 0, .processorStep 0].map fun e =>
    .machine i (.streams (.host (.threads e))) fun _ => (0, 0)

end Circuit

end ITCP
