import ITCP.Lib.Run
import ITCP.Proofs.Copies

/-!
# The order of the states

A packet moves the status of a socket forward or leaves it alone, and only the steps of a handshake
make a socket ready. The replies to SYN and FIN packets are acknowledgements, and these packets do
not touch the stream.
-/

namespace ITCP
open Lib

/-- The place of a status in the life of a connection. Packets neither enter nor leave the other
two values. -/
def Status.stage : Status → Option ℕ
  | .listen | .synsent => some 0
  | .synrcvd => some 1
  | .estab => some 2
  | .finwait1 => some 3
  | .finwait2 | .closing | .lastack => some 4
  | .timewait | .closed => some 5
  | .unset | .closewait => none

/-- How many more changes packets can make. They never enter FINWAIT1. -/
def Status.movesLeft : Status → ℕ
  | .listen | .synsent => 4
  | .synrcvd => 3
  | .estab | .finwait1 => 2
  | .finwait2 | .closing | .lastack => 1
  | .timewait | .closed | .unset | .closewait => 0

structure Status.Before (x y : Status) : Prop where
  stage : ∃ i j, x.stage = some i ∧ y.stage = some j ∧ i < j
  movesLeft : y.movesLeft < x.movesLeft

lemma Status.Before.trans {x y z : Status} (hxy : x.Before y) (hyz : y.Before z) : x.Before z := by
  obtain ⟨i, j, hi, hj, hij⟩ := hxy.stage
  obtain ⟨j', k, hj', hk, hjk⟩ := hyz.stage
  obtain rfl := Option.some.inj (hj.symm.trans hj')
  exact ⟨⟨i, k, hi, hk, hij.trans hjk⟩, hyz.movesLeft.trans hxy.movesLeft⟩

namespace MySocket

variable {s t : MySocket} {p : Segment} {tmp : UInt8} {out : List Segment}

/-- What the processing of one packet does to a connection. -/
structure Advances (s : MySocket) (p : Segment) (t : MySocket) (out : List Segment) : Prop where
  status : t.tcb.status ≠ s.tcb.status → s.tcb.status.Before t.tcb.status
  connReady : t.connReady → ¬s.connReady → s.tcb.status = .synsent ∧ t.tcb.status = .estab
  accSynReady : t.accSynReady → ¬s.accSynReady → s.tcb.status = .listen ∧ t.tcb.status = .synrcvd
  accAckReady : t.accAckReady → ¬s.accAckReady → s.tcb.status = .synrcvd ∧ t.tcb.status = .estab
  replies : isSyn p.flag ∨ isFin p.flag → ∀ q ∈ out,
    q.info = p.info.mirror ∧ q.seq = p.ack ∧ q.ack = p.seq + 1
  stream : isSyn p.flag ∨ isFin p.flag → SameStream s t

/-- The changes of status during a handshake. -/
def openMoves : List (Status × Status) :=
  [(.listen, .synrcvd), (.synsent, .synrcvd), (.synsent, .estab), (.synrcvd, .estab)]

lemma openMoves_before {x y : Status} (h : (x, y) ∈ openMoves) : x.Before y := by
  simp only [openMoves, List.mem_cons, Prod.mk.injEq, List.not_mem_nil, or_false] at h
  obtain ⟨rfl, rfl⟩ | ⟨rfl, rfl⟩ | ⟨rfl, rfl⟩ | ⟨rfl, rfl⟩ := h
  · exact ⟨⟨0, 1, rfl, rfl, by decide⟩, by decide⟩
  · exact ⟨⟨0, 1, rfl, rfl, by decide⟩, by decide⟩
  · exact ⟨⟨0, 2, rfl, rfl, by decide⟩, by decide⟩
  · exact ⟨⟨1, 2, rfl, rfl, by decide⟩, by decide⟩

lemma finMoves_before {x y : Status} {flags : List UInt16} (h : (x, y, flags) ∈ finMoves) :
    x.Before y := by
  obtain ⟨rfl, rfl, -⟩ | ⟨rfl, rfl, -⟩ | ⟨rfl, rfl, -⟩ := mem_finMoves.mp h
  · exact ⟨⟨2, 4, rfl, rfl, by decide⟩, by decide⟩
  · exact ⟨⟨3, 4, rfl, rfl, by decide⟩, by decide⟩
  · exact ⟨⟨4, 5, rfl, rfl, by decide⟩, by decide⟩

lemma ackMoves_before {x y : Status} (h : (x, y) ∈ ackMoves) : x.Before y := by
  obtain ⟨rfl, rfl⟩ | ⟨rfl, rfl⟩ | ⟨rfl, rfl⟩ := mem_ackMoves.mp h
  · exact ⟨⟨3, 4, rfl, rfl, by decide⟩, by decide⟩
  · exact ⟨⟨4, 5, rfl, rfl, by decide⟩, by decide⟩
  · exact ⟨⟨4, 5, rfl, rfl, by decide⟩, by decide⟩

/-- A packet that leaves the status and the flags alone, and the stream unless it carries data. -/
lemma advances_of_same (hsame : SameState s t)
    (hcontrol : isSyn p.flag ∨ isFin p.flag → out = [] ∧ SameStream s t) : Advances s p t out where
  status h := absurd (by rw [hsame.tcb]) h
  connReady h h' := absurd (hsame.connReady ▸ h) h'
  accSynReady h h' := absurd (hsame.accSynReady ▸ h) h'
  accAckReady h h' := absurd (hsame.accAckReady ▸ h) h'
  replies h q hq := by
    rw [(hcontrol h).1] at hq
    exact absurd hq List.not_mem_nil
  stream h := (hcontrol h).2

lemma Reads.advances (h : Reads s p tmp t out) : Advances s p t out := by
  cases h with
  | synAck hsyn hack hst =>
    exact ⟨fun _ => openMoves_before (by simp [openMoves, hst]),
      fun _ _ => ⟨hst, rfl⟩, fun h h' => absurd h h', fun h h' => absurd h h',
      fun _ q hq => by simp_all [reply, sendTCPPacket], fun _ => ⟨rfl, rfl, rfl, rfl⟩⟩
  | syn hsyn hst =>
    exact ⟨fun _ => openMoves_before (by simp [openMoves, hst]),
      fun h h' => absurd h h', fun _ _ => ⟨hst, rfl⟩, fun h h' => absurd h h',
      fun _ q hq => by simp_all [reply, sendTCPPacket], fun _ => ⟨rfl, rfl, rfl, rfl⟩⟩
  | crossing hsyn hst =>
    exact ⟨fun _ => openMoves_before (by simp [openMoves, hst]),
      fun h h' => absurd h h', fun h h' => absurd h h', fun h h' => absurd h h',
      fun _ q hq => by simp_all [reply, sendTCPPacket], fun _ => ⟨rfl, rfl, rfl, rfl⟩⟩
  | fin hsyn hfin x flags hmove =>
    refine ⟨fun _ => finMoves_before hmove, fun h h' => absurd h h', fun h h' => absurd h h',
      fun h h' => absurd h h', fun _ q hq => ?_, fun _ => ⟨rfl, rfl, rfl, rfl⟩⟩
    obtain ⟨flag, -, rfl⟩ := List.mem_map.mp hq
    exact ⟨rfl, rfl, rfl⟩
  | accAck hsyn hfin hack hst =>
    exact ⟨fun _ => openMoves_before (by simp [openMoves, hst]),
      fun h h' => absurd h h', fun h h' => absurd h h', fun _ _ => ⟨hst, rfl⟩,
      fun _ q hq => absurd hq List.not_mem_nil, fun _ => ⟨rfl, rfl, rfl, rfl⟩⟩
  | ack hsyn hfin hack x hmove =>
    exact ⟨fun _ => ackMoves_before hmove, fun h h' => absurd h h', fun h h' => absurd h h',
      fun h h' => absurd h h', fun _ q hq => absurd hq List.not_mem_nil,
      fun _ => ⟨rfl, rfl, rfl, rfl⟩⟩
  | data hsyn hfin hack t out hread =>
    exact advances_of_same (recvTCPPacket_sameState hread) fun h => (h.elim hsyn hfin).elim
  | ignored => exact advances_of_same (.refl s) fun _ => ⟨rfl, .refl s⟩

/-- The address that a server in SYNSENT takes from the packet plays no part in this. -/
theorem readIPPacket_advances (h : s.readIPPacket p tmp = some (t, out)) : Advances s p t out := by
  have hlocated := (readIPPacket_reads h).advances
  have hstream := s.sameStream_located p
  unfold located at hlocated hstream
  split_ifs at hlocated hstream
  · exact ⟨hlocated.status, hlocated.connReady, hlocated.accSynReady, hlocated.accAckReady,
      hlocated.replies, fun hp => hstream.trans (hlocated.stream hp)⟩
  · exact hlocated

/-! ### Sequences of packets -/

/-- The processing of one packet after the other, with no call in between. -/
def process (s : MySocket) (a : Segment × UInt8) : Option MySocket :=
  (s.readIPPacket a.1 a.2).map Prod.fst

lemma process_advances {a : Segment × UInt8} (h : s.process a = some t) :
    ∃ out, Advances s a.1 t out := by
  obtain ⟨⟨u, out⟩, hread, rfl⟩ := Option.map_eq_some_iff.mp h
  exact ⟨out, readIPPacket_advances hread⟩

/-- However many packets are processed, and whatever is in them: the status changes four times at
most and only forward, a closed connection stays closed, and the next packet, too, makes a socket
ready only in its step of the handshake, is answered as it should be, and leaves the stream alone
if it has SYN or FIN set. Such a packet has a result whenever it fits into the buffer it is copied
into. -/
theorem packets_advance {as : List (Segment × UInt8)} (h : run process s as = some t) :
    changes (fun v : MySocket => v.tcb.status) process s as ≤ 4 ∧
    (t.tcb.status ≠ s.tcb.status → s.tcb.status.Before t.tcb.status) ∧
    (s.tcb.status = .timewait ∨ s.tcb.status = .closed → t.tcb.status = s.tcb.status) ∧
    (∀ p tmp u out, t.readIPPacket p tmp = some (u, out) → Advances t p u out) ∧
    ∀ p tmp, p.Fits → isSyn p.flag ∨ isFin p.flag → (t.readIPPacket p tmp).isSome := by
  have hforward : t.tcb.status ≠ s.tcb.status → s.tcb.status.Before t.tcb.status := by
    refine run_invariant
      (I := fun v => v.tcb.status ≠ s.tcb.status → s.tcb.status.Before v.tcb.status)
      (fun u a v hu hv hne => ?_) (fun hne => absurd rfl hne) h
    obtain ⟨out, hadv⟩ := process_advances hv
    by_cases hsame : v.tcb.status = u.tcb.status
    · rw [hsame] at hne ⊢
      exact hu hne
    by_cases hfirst : u.tcb.status = s.tcb.status
    · rw [← hfirst]
      exact hadv.status hsame
    · exact (hu hfirst).trans (hadv.status hsame)
  refine ⟨?_, hforward, fun hend => ?_, fun p tmp u out hu => readIPPacket_advances hu,
    fun p tmp hfits hp => readIPPacket_of_not_transfers (fun h => hp.elim h.1 h.2.1) hfits⟩
  · refine (changes_le Status.movesLeft (fun u a v hv hne => ?_) s as).trans ?_
    · obtain ⟨out, hadv⟩ := process_advances hv
      exact (hadv.status hne).movesLeft
    · cases s.tcb.status <;> decide
  · by_contra hne
    have hleft := (hforward hne).movesLeft
    rcases hend with hst | hst <;> rw [hst] at hleft <;> exact absurd hleft (Nat.not_lt_zero _)

/-- A passive open and a passive close, with one byte of data in between. -/
def passiveLife : List (Segment × UInt8) :=
  [setSyn 0, setAck 0, 0, setFin 0, setAck 0].map (fun flag => (⟨⟨1, 2, 3, 4⟩, 0, 0, flag, [7]⟩, 0))

theorem packets_advance_passiveLife :
    ∃ t, run process ((create ⟨2, 0, 4, 0⟩ false).setStatus .listen) passiveLife = some t ∧
      t.tcb.status = .closed ∧ t.sizep = 1 ∧
      changes (fun v : MySocket => v.tcb.status) process
        ((create ⟨2, 0, 4, 0⟩ false).setStatus .listen) passiveLife = 4 ∧
      changes (fun v : MySocket => v.tcb.status) process
        ((create ⟨2, 0, 4, 0⟩ false).setStatus .listen) passiveLife ≤ 4 := by
  have ht : run process ((create ⟨2, 0, 4, 0⟩ false).setStatus .listen) passiveLife = some _ :=
    (Option.some_get (by decide +kernel)).symm
  exact ⟨_, ht, by decide +kernel, by decide +kernel, by decide +kernel, (packets_advance ht).1⟩

end MySocket

end ITCP
