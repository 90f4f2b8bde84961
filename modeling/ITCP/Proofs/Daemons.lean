import ITCP.Proofs.Internet
import ITCP.Proofs.Machine

/-!
# The daemons go on

What the threads that bring frames to the sockets of a host wait for. The main loop stands before
the frame that it takes next, or in `recvIPPacket` between the two pushes. It goes on with the next
frame unless that brings a packet for which `recvIPPacket` finds no socket, and a push waits for no
more than a place in the queue.
-/

namespace ITCP
open Lib

/-! ### What sockets send -/

namespace MySocket

variable {s t : MySocket} {p : Segment} {tmp : UInt8} {out : List Segment}

lemma copyOut_length {off len : ℤ} {buf : List UInt8} (h : s.copyOut off len = some buf) :
    buf.length = len.toNat := by
  unfold copyOut at h
  split_ifs at h
  rw [← Option.some.inj h, readAt_length]

/-- What answers a packet carries at most 1000 bytes. -/
lemma readIPPacket_short (h : s.readIPPacket p tmp = some (t, out)) :
    ∀ q ∈ out, q.payload.length ≤ 1000 := by
  have hreply : ∀ flag, (reply p tmp flag).payload.length ≤ 1000 := fun _ => by
    rw [reply, sendTCPPacket, List.length_singleton]
    omega
  cases readIPPacket_reads h with
  | synAck | syn | crossing => exact List.forall_mem_singleton.mpr (hreply _)
  | fin => exact List.forall_mem_map.mpr fun flag _ => hreply flag
  | accAck | ack | ignored => exact List.forall_mem_nil _
  | data _ _ _ _ _ h =>
    unfold recvTCPPacket at h
    split_ifs at h
    · by_cases hrole : (s.located p).role = .server
      · rw [recvAck_server hrole] at h
        cases h
        exact List.forall_mem_nil _
      by_cases hack : p.ack < u32 (s.located p).sizep
      · rw [recvAck_part hrole hack] at h
        obtain ⟨buf, hbuf, h⟩ := Option.map_eq_some_iff.mp h
        cases h
        refine List.forall_mem_singleton.mpr ?_
        rw [sendTCPPacket, copyOut_length hbuf, Int.toNat_natCast]
        exact Nat.min_le_left _ _
      · rw [recvAck_all hrole (UInt32.not_lt.mp hack)] at h
        cases h
        exact List.forall_mem_nil _
    · obtain ⟨databuf, -, h⟩ := Option.bind_eq_some_iff.mp h
      cases h
      exact List.forall_mem_singleton.mpr (by rw [sendTCPPacket, List.length_singleton]; omega)

lemma wrapWriteSend_short (h : s.wrapWriteSend = some (t, out)) :
    ∀ q ∈ out, q.payload.length ≤ 1000 := by
  obtain ⟨buf, hbuf, h⟩ := Option.bind_eq_some_iff.mp h
  cases h
  refine List.forall_mem_singleton.mpr ?_
  rw [sendTCPPacket, copyOut_length hbuf]
  split_ifs <;> omega

end MySocket

namespace Host

variable {h h' : Host} {e : HostEvent} {out : List Segment}

/-- A host keeps its pipeline in order, and what it sends is short. -/
lemma step_short (hholds : ∃ l, h.threads.pipeline.Holds l) (hs : h.step e = some (h', out)) :
    (∃ l, h'.threads.pipeline.Holds l) ∧ ∀ q ∈ out, q.payload.length ≤ 1000 := by
  cases e with
  | threads e =>
    obtain ⟨threads, hthreads, hs⟩ := Option.bind_eq_some_iff.mp hs
    cases hs
    refine ⟨Threads.step_holds hholds hthreads, ?_⟩
    obtain ⟨hlog, -⟩ | ⟨tmp, fd, p, s, t, out, -, -, -, hread, -, hlog⟩ := log_threads hthreads
    · rw [replies, hlog, List.drop_length]
      exact List.forall_mem_nil _
    · rw [replies, hlog, List.drop_left, List.flatMap_singleton]
      exact MySocket.readIPPacket_short hread
  | connect fd address tmp =>
    obtain ⟨s, -, hs⟩ := Option.bind_eq_some_iff.mp hs
    cases hs
    exact ⟨hholds, List.forall_mem_singleton.mpr (by decide : 1 ≤ 1000)⟩
  | close fildes tmp =>
    obtain ⟨s, -, hs⟩ := Option.bind_eq_some_iff.mp hs
    split_ifs at hs
    · cases hs
      exact ⟨hholds, List.forall_mem_nil _⟩
    · cases hs
      exact ⟨hholds, List.forall_mem_singleton.mpr (by decide : 1 ≤ 1000)⟩
  | closeStatus i =>
    obtain ⟨call, -, hs⟩ := Option.bind_eq_some_iff.mp hs
    split_ifs at hs
    cases hs
    exact ⟨hholds, List.forall_mem_nil _⟩
  | closeReturn i =>
    obtain ⟨call, -, hs⟩ := Option.bind_eq_some_iff.mp hs
    obtain ⟨s, -, hs⟩ := Option.bind_eq_some_iff.mp hs
    split_ifs at hs
    cases hs
    exact ⟨hholds, List.forall_mem_nil _⟩

end Host

namespace Machine

variable {m m' : Machine} {e : MachineEvent} {out : List Segment}

/-- The two maps of the host have the same keys, and its threads find what they look for. -/
structure Sound (m : Machine) : Prop where
  tidy : m.streams.host.threads.Tidy
  holds : ∃ l, m.pipeline.Holds l

lemma sound_init : Sound .init where
  tidy := Host.tidy_init
  holds := by
    have hinit : Host.init.threads.pipeline.Initial :=
      ⟨nofun, BlockingQueue.wf_new 2000, by decide, rfl, rfl, rfl, rfl, rfl⟩
    exact ⟨[], hinit.holds⟩

/-- A call changes a socket in place. -/
lemma Sound.setSocket (h : m.Sound) {fd : ℤ} {s : MySocket} {w : Streams} (hm' : m'.streams = w)
    (hw : w.host = (m.streams.setSocket fd s).host) : m'.Sound := by
  subst hm'
  refine ⟨?_, ?_⟩
  · rw [hw]
    exact Host.tidy_setSockets h.tidy fun _ => OrdMap.isSome_find?_modify _ _ _ _
  · rw [pipeline, hw]
    exact h.holds

lemma Sound.step_streams {e : StreamsEvent} {w : Streams} (h : m.Sound)
    (hs : m.streams.step e = some (w, out)) (hm' : m'.streams = w) :
    m'.Sound ∧ ∀ q ∈ out, q.payload.length ≤ 1000 := by
  cases e with
  | host e =>
    obtain ⟨⟨host, out'⟩, hhost, hs⟩ := Option.bind_eq_some_iff.mp hs
    cases hs
    obtain ⟨hholds, hshort⟩ := Host.step_short h.holds hhost
    refine ⟨⟨?_, ?_⟩, hshort⟩
    · rw [hm']
      exact Host.tidy_next h.tidy (Host.next_eq_some.mpr ⟨_, hhost⟩)
    · rw [pipeline, hm']
      exact hholds
  | read fildes nbyte =>
    obtain ⟨s, -, hs⟩ := Option.bind_eq_some_iff.mp hs
    cases hs
    refine ⟨⟨?_, ?_⟩, List.forall_mem_nil _⟩
    · rw [hm']
      exact h.tidy
    · rw [pipeline, hm']
      exact h.holds
  | readReturn i =>
    obtain ⟨r, -, hs⟩ := Option.bind_eq_some_iff.mp hs
    obtain ⟨s, -, hs⟩ := Option.bind_eq_some_iff.mp hs
    split_ifs at hs
    obtain ⟨⟨buf, t⟩, -, hs⟩ := Option.bind_eq_some_iff.mp hs
    cases hs
    exact ⟨h.setSocket hm' rfl, List.forall_mem_nil _⟩
  | write fildes buf =>
    obtain ⟨s, -, hs⟩ := Option.bind_eq_some_iff.mp hs
    obtain ⟨t, -, hs⟩ := Option.bind_eq_some_iff.mp hs
    cases hs
    exact ⟨h.setSocket hm' rfl, List.forall_mem_nil _⟩
  | writeSend i =>
    obtain ⟨fildes, -, hs⟩ := Option.bind_eq_some_iff.mp hs
    obtain ⟨s, -, hs⟩ := Option.bind_eq_some_iff.mp hs
    obtain ⟨⟨t, out'⟩, ht, hs⟩ := Option.bind_eq_some_iff.mp hs
    cases hs
    exact ⟨h.setSocket hm' rfl, MySocket.wrapWriteSend_short ht⟩

lemma Sound.step (h : m.Sound) (hs : m.step e = some (m', out)) :
    m'.Sound ∧ ∀ q ∈ out, q.payload.length ≤ 1000 := by
  cases e with
  | streams e =>
    obtain ⟨w, hw, rfl⟩ := Machine.step_streams hs
    exact h.step_streams hw rfl
  | writeReturn k =>
    obtain ⟨fildes, -, hs⟩ := Option.bind_eq_some_iff.mp hs
    obtain ⟨s, -, hs⟩ := Option.bind_eq_some_iff.mp hs
    split_ifs at hs
    cases hs
    exact ⟨⟨h.tidy, h.holds⟩, List.forall_mem_nil _⟩

lemma Sound.ipCallback (h : m.Sound) {delivered : Option (List UInt8)}
    (hs : m.ipCallback delivered = some m') : m'.Sound := by
  cases delivered with
  | none =>
    rw [ipCallback_none hs]
    exact h
  | some packet =>
    obtain ⟨p, ⟨w, out⟩, -, hw, rfl⟩ := ipCallback_some hs
    exact (h.step_streams hw rfl).1

/-- `recvIPPacket` has returned from its last call and finds a socket for the packet, if there is
one. -/
def Takes (m : Machine) (delivered : Option (List UInt8)) : Prop :=
  m.pipeline.receiver = .idle ∧
    ∀ packet ∈ delivered, ∃ p, Segment.decode packet = some p ∧ HasSocket m.sockets p

/-- The socket that is chosen has a queue. -/
lemma Sound.receive_isSome (h : m.Sound) (hidle : m.pipeline.receiver = .idle) {p : Segment}
    (hfits : p.Fits) :
    (m.streams.step (.host (.threads (.receive p)))).isSome ↔ HasSocket m.sockets p := by
  have hidle' : m.streams.host.threads.pipeline.receiver = .idle := hidle
  rw [← recvIPPacket_isSome hfits]
  change _ ↔ (recvIPPacket m.streams.host.threads.kernel.sockets p).isSome
  simp only [Streams.step, Host.step, Threads.step, Pipeline.step, hidle']
  cases hrecv : recvIPPacket m.streams.host.threads.kernel.sockets p with
  | none => exact Iff.rfl
  | some r =>
    have hqueue : (m.streams.host.threads.pipeline.socketQueue.find? r.1).isSome := by
      rw [h.tidy.keys]
      exact isSome_of_recvIPPacket hrecv
    simp [hqueue]

lemma Sound.ipCallback_isSome (h : m.Sound) {delivered : Option (List UInt8)}
    (hlen : ∀ packet ∈ delivered, packet.length ≤ 2000) :
    (m.ipCallback delivered).isSome ↔ m.Takes delivered := by
  unfold Machine.ipCallback Takes
  by_cases hidle : m.pipeline.receiver = .idle
  · have hidle' : m.streams.host.threads.pipeline.receiver = .idle := hidle
    rw [hidle']
    cases delivered with
    | none => exact iff_of_true rfl ⟨hidle, nofun⟩
    | some packet =>
      cases hp : Segment.decode packet with
      | none =>
        refine iff_of_false (fun hsome => ?_) fun htakes => ?_
        · simp [hp] at hsome
        · obtain ⟨p, hp', -⟩ := htakes.2 packet rfl
          rw [hp] at hp'
          cases hp'
      | some p =>
        have hfits : p.Fits := (fits_of_decode hp).mpr (hlen packet rfl)
        have hreceive := h.receive_isSome hidle hfits
        cases hstep : m.streams.step (.host (.threads (.receive p))) with
        | none =>
          rw [hstep] at hreceive
          refine iff_of_false (fun hsome => ?_) fun htakes => ?_
          · simp [hp, hstep] at hsome
          · obtain ⟨p', hp', hsocket⟩ := htakes.2 packet rfl
            obtain rfl := Option.some.inj (hp.symm.trans hp')
            cases hreceive.mpr hsocket
        | some w =>
          rw [hstep] at hreceive
          refine iff_of_true (by simp [hp, hstep]) ⟨hidle, fun packet' hp' => ?_⟩
          obtain rfl := Option.some.inj hp'
          exact ⟨p, hp, hreceive.mp rfl⟩
  · refine iff_of_false (fun hsome => hidle ?_) fun htakes => hidle htakes.1
    obtain ⟨m', hm'⟩ := Option.isSome_iff_exists.mp hsome
    split at hm'
    · assumption
    · assumption
    · cases hm'

end Machine

/-- A header of 20 bytes and the payload. -/
lemma fits_of_mem_sends {N : Type} {i : N} {out : List Segment} {unwritten : ℕ → UInt16 × UInt32}
    (hout : ∀ q ∈ out, q.payload.length ≤ 1000) : ∀ e ∈ sends i out unwritten, e.Fits := by
  intro e he
  obtain ⟨k, hk, rfl⟩ := List.mem_mapIdx.mp he
  have hlen := hout out[k] (List.getElem_mem hk)
  change (out[k].encode _ _).length ≤ 1020
  rw [Segment.encode_length]
  omega

/-! ### The threads of the daemon -/

namespace Stack

variable {N : Type} [DecidableEq N] {node : N → Node} {wire : N → ℕ → List (N × ℕ)} {s t : Stack N}
  {e : StackEvent N} {i : N}

structure WF (node : N → Node) (s : Stack N) : Prop where
  net : Internet.WF node s.net
  machine : ∀ i, (s.machine i).Sound

omit [DecidableEq N] in
lemma start_wf (hvalid : ∀ i, (node i).RoutesValid) : WF node (start node) :=
  ⟨Internet.start_wf hvalid, fun _ => Machine.sound_init⟩

lemma sound_update (hs : ∀ j, (s.machine j).Sound) {m : Machine} (hm : m.Sound) (j : N) :
    (Function.update s.machine i m j).Sound := by
  by_cases hj : j = i
  · rw [hj, Function.update_self]
    exact hm
  · rw [Function.update_of_ne hj]
    exact hs j

/-- What the network does in a step is a run of its own. -/
lemma WF.step (hwired : Traffic.WiredUp wire node) (h : WF node s) (hs : s.step wire e = some t) :
    WF node t ∧ ∃ es, run (Internet.step wire) s.net es = some t.net := by
  cases e with
  | machine i e unwritten =>
    obtain ⟨⟨m, out⟩, hm, hs⟩ := Option.bind_eq_some_iff.mp hs
    obtain ⟨net, hnet, hs⟩ := Option.bind_eq_some_iff.mp hs
    obtain rfl := Option.some.inj hs
    obtain ⟨hsound, hshort⟩ := (h.machine i).step hm
    have hnet' : Internet.WF node net := run_invariant_of (I := Internet.WF node) InternetEvent.Fits
      (fun _ _ _ he hs hstep => hs.step hwired he hstep) (fits_of_mem_sends hshort) h.net hnet
    exact ⟨⟨hnet', sound_update h.machine hsound⟩, _, hnet⟩
  | net e =>
    cases e with
    | send i p => cases hs
    | recvFrame i tmp =>
      obtain ⟨⟨station, out⟩, -, hs⟩ := Option.bind_eq_some_iff.mp hs
      obtain ⟨net, hnet, hs⟩ := Option.bind_eq_some_iff.mp hs
      obtain ⟨m, hm, hs⟩ := Option.bind_eq_some_iff.mp hs
      obtain rfl := Option.some.inj hs
      have hsound : m.Sound := (h.machine i).ipCallback hm
      exact ⟨⟨h.net.step hwired (by trivial) hnet, sound_update h.machine hsound⟩,
        [.recvFrame i tmp], run_cons_eq_some.mpr ⟨_, hnet, run_nil _ _⟩⟩
    | capture | push | lose | sendArp =>
      obtain ⟨net, hnet, hs⟩ := Option.bind_eq_some_iff.mp hs
      obtain rfl := Option.some.inj hs
      exact ⟨⟨h.net.step hwired (by trivial) hnet, h.machine⟩, [_],
        run_cons_eq_some.mpr ⟨_, hnet, run_nil _ _⟩⟩

/-- The main loop and the capture threads of a host go on. The main loop takes the next frame, on
which `recvFrame` is defined, exactly if it is not inside `recvIPPacket` and finds a socket for the
packet that the frame may bring; in there it waits for no more than a place in the queue at hand.
The thread of a device that has captured a frame waits while the queue is full, and one that has
none while nothing is on its wire. -/
structure GoesOn (wire : N → ℕ → List (N × ℕ)) (s : Stack N) (i : N) : Prop where
  recvFrame : (s.net.station i).q.contents ≠ [] → ∀ tmp, ∃ station out,
    (s.net.station i).recvFrame tmp = some (station, out) ∧
      ((s.step wire (.net (.recvFrame i tmp))).isSome ↔ (s.machine i).Takes out.delivered)
  recvIPPacket : (s.machine i).pipeline.receiver ≠ .idle → (s.machine i).pipeline.HasRoom →
    ∀ unwritten,
      (s.step wire (.machine i (.streams (.host (.threads .receiverStep))) unwritten)).isSome
  push : ∀ id, (s.net.station i).capturing id ≠ none → (s.net.station i).q.contents.length < 1024 →
    (s.step wire (.net (.push i id))).isSome
  capture : ∀ id, s.net.line (i, id) ≠ [] → (s.net.station i).capturing id = none →
    (s.step wire (.net (.capture i id))).isSome

lemma WF.recvFrame (h : WF node s) (hne : (s.net.station i).q.contents ≠ []) (tmp : UInt8) :
    ∃ station out, (s.net.station i).recvFrame tmp = some (station, out) ∧
      ((s.step wire (.net (.recvFrame i tmp))).isSome ↔ (s.machine i).Takes out.delivered) := by
  obtain ⟨⟨station, out⟩, hout⟩ :=
    Option.isSome_iff_exists.mp (h.net.recvFrame_isSome hne tmp)
  refine ⟨station, out, hout, ?_⟩
  obtain ⟨ret, q, hpop, hrecv, -⟩ := Station.recvFrame_spec (h.net.station i) hout
  have hlen : ∀ packet ∈ out.delivered, packet.length ≤ 2000 := fun packet hp => by
    have hframe := (h.net.front hpop).1.length_le
    rw [← Node.length_of_delivered hrecv hp] at hframe
    omega
  rw [← (h.machine i).ipCallback_isSome hlen]
  cases hm : (s.machine i).ipCallback out.delivered <;>
    simp [Stack.step, Internet.step, hout, hm]

lemma WF.recvIPPacket (h : WF node s) (hbusy : (s.machine i).pipeline.receiver ≠ .idle)
    (hroom : (s.machine i).pipeline.HasRoom) (unwritten : ℕ → UInt16 × UInt32) :
    (s.step wire (.machine i (.streams (.host (.threads .receiverStep))) unwritten)).isSome := by
  obtain ⟨l, hl⟩ := (h.machine i).holds
  obtain ⟨pipeline, hpipe⟩ := Option.isSome_iff_exists.mp (hl.receiverStep_isSome hroom hbusy)
  have hpipe' : (s.machine i).streams.host.threads.pipeline.receiverStep = some pipeline := hpipe
  simp [Stack.step, Machine.step, Streams.step, Host.step, Threads.step, hpipe', Host.replies,
    sends]

lemma WF.goesOn (h : WF node s) (i : N) : GoesOn wire s i := by
  refine ⟨h.recvFrame, h.recvIPPacket, fun id hne hlt => ?_, fun id hne hidle => ?_⟩
  · have hpush : (s.net.step wire (.push i id)).isSome := h.net.push_isSome hne hlt
    obtain ⟨net, hnet⟩ := Option.isSome_iff_exists.mp hpush
    simp [Stack.step, hnet]
  · have hcapture : (s.net.step wire (.capture i id)).isSome := h.net.capture_isSome hne hidle
    obtain ⟨net, hnet⟩ := Option.isSome_iff_exists.mp hcapture
    simp [Stack.step, hnet]

/-- In every run of the daemons and of the programs that use their sockets, the frames that wait on
the wires, with the threads and in the queues make up the lines of a run of `Lines`, with the same
packets sent, taken and lost, and on every host the main loop and the capture threads go on. -/
theorem daemons_keep_order {es : List (StackEvent N)} (hwired : Traffic.WiredUp wire node)
    (hvalid : ∀ i, (node i).RoutesValid) (h : run (step wire) (start node) es = some t) :
    (∃ es', run (Lines.step wire) (Lines.start node) es' = some t.net.lines) ∧
      ∀ i, GoesOn wire t i := by
  have ht : WF node t := run_invariant (I := WF node)
    (fun _ _ _ hs hstep => (hs.step hwired hstep).1) (start_wf hvalid) h
  refine ⟨?_, ht.goesOn⟩
  refine run_simulation (I := WF node) (fun s => s.net.lines)
    (fun _ _ _ hs hstep => (hs.step hwired hstep).1) (fun _ _ _ hs hstep => ?_) (start_wf hvalid) h
  obtain ⟨es', hrun⟩ := (hs.step hwired hstep).2
  exact Internet.run_lines hs.net.station hrun

open Network (lineHost lineWire)

lemma lineHost_routesValid (i : Fin 3) : (lineHost i).RoutesValid := by
  intro k v hv
  fin_cases i <;> cases hv

def call {N : Type} (i : N) (e : HostEvent) : StackEvent N :=
  .machine i (.streams (.host e)) fun _ => (0, 0)

/-- A socket of the server listens. -/
def listening {N : Type} (server : N) : List (StackEvent N) :=
  [call server (.threads (.call (.socket default false))),
    call server (.threads (.call (.bind 100 ⟨1, 0, 5, 0⟩))),
    call server (.threads (.call (.listen 100 1)))]

/-- The SYN of a client gets to the queue of the server's main loop. -/
def synQueued {N : Type} (server relay client : N) : List (StackEvent N) :=
  [call client (.threads (.call (.socket default false))),
    call client (.connect 100 ⟨4, 1, 6, 5⟩ 0),
    .net (.capture relay 1), .net (.push relay 1), .net (.recvFrame relay 0),
    .net (.capture server 0), .net (.push server 0)]

/-- The main loop goes on with a SYN for a socket that listens, and not with one for none. -/
theorem daemons_keep_order_line : ∃ s t,
    run (step lineWire) (start lineHost) (synQueued 0 1 2) = some s ∧
    run (step lineWire) (start lineHost) (listening 0 ++ synQueued 0 1 2) = some t ∧
    (s.net.station 0).q.contents.length = 1 ∧ (t.net.station 0).q.contents.length = 1 ∧
    (∃ es', run (Lines.step lineWire) (Lines.start lineHost) es' = some t.net.lines) ∧
    GoesOn lineWire s 0 ∧ (s.step lineWire (.net (.recvFrame 0 0))).isSome = false ∧
    GoesOn lineWire t 0 ∧ (t.step lineWire (.net (.recvFrame 0 0))).isSome := by
  have hs : run (step lineWire) (start lineHost) (synQueued 0 1 2) = some _ :=
    (Option.some_get (by decide +kernel)).symm
  have ht : run (step lineWire) (start lineHost) (listening 0 ++ synQueued 0 1 2) = some _ :=
    (Option.some_get (by decide +kernel)).symm
  obtain ⟨-, hgo⟩ := daemons_keep_order Traffic.lineWire_wiredUp lineHost_routesValid hs
  obtain ⟨hlines, hgo'⟩ := daemons_keep_order Traffic.lineWire_wiredUp lineHost_routesValid ht
  exact ⟨_, _, hs, ht, by decide +kernel, by decide +kernel, hlines, hgo 0, by decide +kernel,
    hgo' 0, by decide +kernel⟩

end Stack

end ITCP
