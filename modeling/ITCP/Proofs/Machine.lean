import ITCP.Lib.Erase
import ITCP.Model.Connection
import ITCP.Model.Stack
import ITCP.Proofs.Streams

/-!
# A socket of a host as the end of a connection

The packets for a socket pass through the queues of its host, and its calls run among those on other
sockets. If the only calls on it are writes, or reads, one after the other, it does what one end of
a `Connection` does.
-/

namespace ITCP
open Lib

variable {s t : MySocket} {p : Segment} {tmp : UInt8} {out : List Segment}

/-- A packet from where the socket is connected to changes neither its tuple nor `readp`, and the
answers go back there. -/
lemma readIPPacket_answers (hp : p.info.mirror = s.address)
    (h : s.readIPPacket p tmp = some (t, out)) :
    t.address = s.address ∧ t.readp = s.readp ∧ ∀ q ∈ out, q.info = s.address := by
  have hlocated : s.located p = s := by
    unfold MySocket.located
    split_ifs
    · rw [hp]
    · rfl
  have hreads := MySocket.readIPPacket_reads h
  rw [hlocated] at hreads
  have hreply : ∀ flag, ∀ q ∈ [MySocket.reply p tmp flag], q.info = s.address := fun flag q hq => by
    rw [List.mem_singleton.mp hq]
    exact hp
  cases hreads with
  | synAck | syn | crossing => exact ⟨rfl, rfl, hreply _⟩
  | fin hsyn hfin x flags =>
    refine ⟨rfl, rfl, fun q hq => ?_⟩
    obtain ⟨flag, -, rfl⟩ := List.mem_map.mp hq
    exact hp
  | accAck | ack | ignored => exact ⟨rfl, rfl, nofun⟩
  | data hsyn hfin hack _ _ h =>
    unfold MySocket.recvTCPPacket at h
    split_ifs at h
    · obtain ⟨-, rfl, rfl⟩ | ⟨-, rfl, ⟨-, rfl⟩ | ⟨-, buf, rfl⟩⟩ := recvAck_eq_some h
      · exact ⟨rfl, rfl, nofun⟩
      · exact ⟨rfl, rfl, nofun⟩
      · exact ⟨rfl, rfl, fun q hq => by rw [List.mem_singleton.mp hq]; exact hp⟩
    · obtain ⟨databuf, -, rfl, rfl⟩ := recvData_eq_some h
      exact ⟨rfl, rfl, fun q hq => by rw [List.mem_singleton.mp hq]; exact hp⟩

lemma u32_i32 (x : UInt32) : u32 (i32 x) = x := by
  have hlt := x.toBitVec.isLt
  have hnat : x.toNat = x.toBitVec.toNat := rfl
  rw [← UInt32.toNat_inj, u32, i32, UInt32.ofInt, UInt32.toNat_ofNat', BitVec.toInt_eq_toNat_cond,
    hnat]
  split_ifs <;> omega

namespace Host

variable {h h' : Host}

/-- The processing thread takes a socket, or it processes the packet that waits longest. -/
lemma step_processorStep (hholds : ∃ l, h.threads.pipeline.Holds l)
    (hs : h.step (.threads (.processorStep tmp)) = some (h', out)) :
    (∃ l, h'.threads.pipeline.Holds l) ∧
    ((h.nextPacket = none ∧ out = [] ∧ h'.sockets = h.sockets ∧
        h'.threads.pipeline.pending = h.threads.pipeline.pending) ∨
      ∃ fd p v w, h.nextPacket = some (fd, p) ∧ h.sockets.find? fd = some v ∧
        v.readIPPacket p tmp = some (w, out) ∧ h'.sockets = h.sockets.modify fd (fun _ => w) ∧
        h.threads.pipeline.pending = (fd, p) :: h'.threads.pipeline.pending) := by
  obtain ⟨threads, hthreads, hs⟩ := Option.bind_eq_some_iff.mp hs
  cases hs
  refine ⟨Threads.step_holds hholds hthreads, ?_⟩
  obtain ⟨l, hl⟩ := hholds
  obtain ⟨pipeline, hpipe, ht⟩ := Option.bind_eq_some_iff.mp hthreads
  cases hp : h.threads.pipeline.processor with
  | popFd =>
    rw [hp] at ht
    obtain rfl := Option.some.inj ht
    refine Or.inl ⟨?_, ?_, rfl, Pipeline.pending_popFd hp hpipe⟩
    · rw [nextPacket, hp]
    · rw [replies, List.drop_length, List.flatMap_nil]
  | popPacket fd =>
    rw [hp] at ht
    obtain ⟨kernel, hread, ht⟩ := Option.bind_eq_some_iff.mp ht
    obtain rfl := Option.some.inj ht
    obtain ⟨q, hq, hread⟩ := Option.bind_eq_some_iff.mp hread
    obtain ⟨⟨p, q'⟩, hpop, hread⟩ := Option.bind_eq_some_iff.mp hread
    obtain ⟨v, hv, hread⟩ := Option.bind_eq_some_iff.mp hread
    obtain ⟨⟨w, out⟩, hw, hread⟩ := Option.bind_eq_some_iff.mp hread
    obtain rfl := Option.some.inj hread
    refine Or.inr ⟨fd, p, v, w, ?_, hv, ?_, rfl, Pipeline.pending_popPacket hl hp hq hpop hpipe⟩
    · rw [nextPacket, hp]
      exact Option.bind_eq_some_iff.mpr ⟨q, hq, Option.bind_eq_some_iff.mpr ⟨(p, q'), hpop, rfl⟩⟩
    · rw [hw, replies, List.drop_left, List.flatMap_singleton]

/-- A call leaves the packets that have been received alone. -/
lemma step_call_pending {e : KernelEvent} (hholds : ∃ l, h.threads.pipeline.Holds l)
    (hs : h.step (.threads (.call e)) = some (h', out)) :
    (∃ l, h'.threads.pipeline.Holds l) ∧
      h'.threads.pipeline.pending = h.threads.pipeline.pending := by
  obtain ⟨threads, hthreads, hs⟩ := Option.bind_eq_some_iff.mp hs
  cases hs
  refine ⟨Threads.step_holds hholds hthreads, ?_⟩
  obtain ⟨l, hl⟩ := hholds
  obtain ⟨-, -, kernel, -, rfl⟩ := Threads.step_call_eq_some hthreads
  exact (Threads.createQueue_holds hl e).2

end Host

namespace Machine

variable {m m' : Machine} {fd : ℤ} {x : Side} {e : MachineEvent} {E : Endpoint} {rest : List Segment}

def sockets (m : Machine) : SocketSet := m.streams.sockets

def pipeline (m : Machine) : Pipeline Segment := m.streams.host.threads.pipeline

/-- The packets for a socket that have been received and not yet processed. -/
def queued (m : Machine) (fd : ℤ) : List Segment :=
  (m.pipeline.pending.filter (fun a => decide (a.1 = fd))).map Prod.snd

def readsOn (m : Machine) (fd : ℤ) : List ReadCall :=
  m.streams.reads.filter (fun r => decide (r.fildes = fd))

/-- The bytes of a socket in a list of calls. -/
def bytesOn (fd : ℤ) (calls : List (ℤ × List UInt8)) : List UInt8 :=
  (calls.filter (fun a => decide (a.1 = fd))).flatMap Prod.snd

lemma bytesOn_append (fd : ℤ) (calls : List (ℤ × List UInt8)) (fildes : ℤ) (buf : List UInt8) :
    bytesOn fd (calls ++ [(fildes, buf)]) =
      bytesOn fd calls ++ if fildes = fd then buf else [] := by
  rw [bytesOn, List.filter_append, List.flatMap_append, ← bytesOn]
  refine congrArg (List.append _) ?_
  split_ifs with h
  · rw [List.filter_cons_of_pos (by simpa using h)]
    simp
  · rw [List.filter_cons_of_neg (by simpa using h)]
    rfl

/-- The bytes that reads have returned on a socket, and those that have been given to writes. -/
def returnedOn (m : Machine) (fd : ℤ) : List UInt8 := bytesOn fd m.streams.returned

def writtenOn (m : Machine) (fd : ℤ) : List UInt8 := bytesOn fd m.written

/-- The only calls on the socket are writes, on the side of the client, or reads, on that of the
server, and each begins after the last one has returned. -/
def permits (m : Machine) (fd : ℤ) (x : Side) : MachineEvent → Bool
  | .streams (.write fildes _) =>
    fildes != fd || x = .client && !(m.streams.writes ++ m.spins).contains fd
  | .streams (.read fildes _) => fildes != fd || x = .server && (m.readsOn fd).isEmpty
  | .streams (.host (.connect fildes _ _)) => fildes != fd
  | .streams (.host (.close fildes _)) => fildes != fd
  | .streams (.host (.closeStatus i)) =>
    (m.streams.host.closes[i]?).all (fun call => call.fildes != fd)
  | .streams (.host (.threads (.call (.bind fildes _)))) => fildes != fd
  | .streams (.host (.threads (.call (.listen fildes _)))) => fildes != fd
  | .streams (.host (.threads (.call (.accept fildes)))) =>
    fildes != fd && freeFd m.sockets != fd
  | .streams (.host (.threads (.call (.acceptReturn i)))) =>
    (m.streams.host.threads.kernel.calls[i]?).all (fun call => call.socket != fd)
  | _ => true

/-- What the event is for the end of a connection that the socket is, if it is anything for it. -/
def localEvent (m : Machine) (fd : ℤ) : MachineEvent → Option LocalEvent
  | .streams (.write fildes buf) => if fildes = fd then some (.mywrite buf) else none
  | .streams (.writeSend i) => if m.streams.writes[i]? = some fd then some .send else none
  | .streams (.readReturn i) =>
    (m.streams.reads[i]?).bind fun r =>
      if r.fildes = fd then some (.read (u32 r.len).toNat) else none
  | .streams (.host (.threads (.processorStep tmp))) =>
    if m.streams.host.nextPacket.map Prod.fst = some fd then some (.process 0 tmp) else none
  | .writeReturn k => if m.spins[k]? = some fd then some .writeReturn else none
  | _ => none

/-- The socket is in the state of the end `E` of a connection, where the packets `rest` are still on
their way to the host. -/
structure Shows (m : Machine) (fd : ℤ) (x : Side) (E : Endpoint) (rest : List Segment) : Prop where
  holds : ∃ l, m.pipeline.Holds l
  sock : m.sockets.find? fd = some E.sock
  inbox : E.inbox = m.queued fd ++ rest
  infos : ∀ p ∈ E.inbox, p.info.mirror = E.sock.address
  wrote : m.streams.writes.count fd = if E.pc = .wrote then 1 else 0
  spins : m.spins.count fd = if E.pc = .spin then 1 else 0
  reads : (m.readsOn fd).length ≤ 1
  reading : ∀ r ∈ m.readsOn fd,
    x = .server ∧ r.pastread = E.sock.readp ∧ i32 (u32 r.len) = r.len
  written : E.written = m.writtenOn fd
  returned : E.returned = m.returnedOn fd

lemma step_streams {e : StreamsEvent} (h : m.step (.streams e) = some (m', out)) :
    ∃ w, m.streams.step e = some (w, out) ∧
      m' = ⟨w, m.spins ++ m.spinning e, m.written ++ writing e⟩ := by
  unfold step at h
  split at h
  · cases h
  · rename_i e' _ he
    obtain rfl := MachineEvent.streams.inj he
    obtain ⟨⟨w, out'⟩, hw, h⟩ := Option.bind_eq_some_iff.mp h
    cases h
    exact ⟨w, hw, rfl⟩
  · rename_i he
    cases he

lemma step_quiet {e : StreamsEvent} (hspinning : m.spinning e = []) (hwriting : writing e = [])
    (h : m.step (.streams e) = some (m', out)) :
    ∃ w, m.streams.step e = some (w, out) ∧ m' = { m with streams := w } := by
  obtain ⟨w, hw, rfl⟩ := step_streams h
  exact ⟨w, hw, by rw [hspinning, hwriting, List.append_nil, List.append_nil]⟩

lemma Shows.congr (h : m.Shows fd x E rest) (hholds : ∃ l, m'.pipeline.Holds l)
    (hsock : m'.sockets.find? fd = m.sockets.find? fd) (hqueued : m'.queued fd = m.queued fd)
    (hwrote : m'.streams.writes.count fd = m.streams.writes.count fd)
    (hspins : m'.spins.count fd = m.spins.count fd) (hreads : m'.readsOn fd = m.readsOn fd)
    (hwritten : m'.writtenOn fd = m.writtenOn fd) (hreturned : m'.returnedOn fd = m.returnedOn fd) :
    m'.Shows fd x E rest where
  holds := hholds
  sock := hsock.trans h.sock
  inbox := by rw [hqueued, h.inbox]
  infos := h.infos
  wrote := hwrote.trans h.wrote
  spins := hspins.trans h.spins
  reads := by rw [hreads]; exact h.reads
  reading := by rw [hreads]; exact h.reading
  written := by rw [hwritten, h.written]
  returned := by rw [hreturned, h.returned]

/-- A step that is nothing for the connection leaves the record of its socket alone. -/
lemma find?_step (hsome : (m.sockets.find? fd).isSome) (hpermits : m.permits fd x e = true)
    (hlocal : m.localEvent fd e = none) (hs : m.step e = some (m', out)) :
    m'.sockets.find? fd = m.sockets.find? fd := by
  cases e with
  | writeReturn k =>
    obtain ⟨fildes, -, hs⟩ := Option.bind_eq_some_iff.mp hs
    obtain ⟨s, -, hs⟩ := Option.bind_eq_some_iff.mp hs
    split_ifs at hs
    cases hs
    rfl
  | streams e =>
    obtain ⟨w, hw, rfl⟩ := step_streams hs
    have hstep := Streams.tableStep_next (Streams.next_eq_some.mpr ⟨_, hw⟩)
    change w.sockets.find? fd = m.streams.sockets.find? fd
    change (m.streams.sockets.find? fd).isSome at hsome
    generalize w.sockets = table at hstep ⊢
    cases hstep with
    | host e table hstep =>
      cases hstep with
      | same => rfl
      | socket address b hfull =>
        refine OrdMap.find?_insert_of_ne _ _ fun hfd => ?_
        rw [hfd] at hsome
        exact absurd (freeFd_find? hfull) (Option.isSome_iff_ne_none.mp hsome)
      | bind fildes address =>
        exact OrdMap.find?_modify_of_ne _ _ (bne_iff_ne.mp hpermits).symm
      | listen fildes => exact OrdMap.find?_modify_of_ne _ _ (bne_iff_ne.mp hpermits).symm
      | accept fildes v hv =>
        obtain ⟨hne, hfree⟩ := Bool.and_eq_true_iff.mp hpermits
        have hfree' : fd ≠ freeFd m.streams.host.sockets := (bne_iff_ne.mp hfree).symm
        rw [OrdMap.find?_modify_of_ne _ _ hfree',
          OrdMap.find?_modify_of_ne _ _ (bne_iff_ne.mp hne).symm,
          OrdMap.find?_insert_of_ne _ _ hfree']
        rfl
      | acceptReturn i call hcall =>
        simp only [permits, hcall, Option.all_some] at hpermits
        exact OrdMap.find?_modify_of_ne _ _ (bne_iff_ne.mp hpermits).symm
      | syn p => cases hs
      | process tmp fildes p v w out hnext =>
        refine OrdMap.find?_modify_of_ne _ _ fun hfd => ?_
        simp [localEvent, hnext, hfd] at hlocal
      | connect fildes address tmp v =>
        exact OrdMap.find?_modify_of_ne _ _ (bne_iff_ne.mp hpermits).symm
      | closeStatus i call hcall =>
        simp only [permits, hcall, Option.all_some] at hpermits
        exact OrdMap.find?_modify_of_ne _ _ (bne_iff_ne.mp hpermits).symm
    | read => rfl
    | readReturn i r s buf t hr =>
      refine OrdMap.find?_modify_of_ne _ _ fun hfd => ?_
      simp [localEvent, hr, hfd] at hlocal
    | write fildes buf s t =>
      refine OrdMap.find?_modify_of_ne _ _ fun hfd => ?_
      simp [localEvent, hfd] at hlocal
    | writeSend i fildes s t out hfildes =>
      refine OrdMap.find?_modify_of_ne _ _ fun hfd => ?_
      simp [localEvent, hfildes, hfd] at hlocal

/-- The same of a step of the host, which leaves the calls of reads and writes alone. -/
lemma Shows.host {e : HostEvent} (h : m.Shows fd x E rest)
    (hpermits : m.permits fd x (.streams (.host e)) = true)
    (hlocal : m.localEvent fd (.streams (.host e)) = none)
    (hs : m.step (.streams (.host e)) = some (m', out)) : m'.Shows fd x E rest := by
  have hsock := find?_step (h.sock ▸ rfl) hpermits hlocal hs
  obtain ⟨w, hw, rfl⟩ := step_quiet rfl rfl hs
  obtain ⟨⟨host, out'⟩, hhost, hw⟩ := Option.bind_eq_some_iff.mp hw
  cases hw
  have hpipeline : (∃ l, host.threads.pipeline.Holds l) ∧
      (host.threads.pipeline.pending.filter (fun a => decide (a.1 = fd))) =
        m.pipeline.pending.filter (fun a => decide (a.1 = fd)) := by
    cases e with
    | threads e =>
      cases e with
      | call e =>
        obtain ⟨hholds, hpending⟩ := Host.step_call_pending h.holds hhost
        exact ⟨hholds, by rw [hpending]; rfl⟩
      | receive p => cases hs
      | receiverStep =>
        obtain ⟨threads, hthreads, hhost⟩ := Option.bind_eq_some_iff.mp hhost
        cases hhost
        refine ⟨Threads.step_holds h.holds hthreads, ?_⟩
        obtain ⟨l, hl⟩ := h.holds
        obtain ⟨pipeline, hpipe, hthreads⟩ := Option.bind_eq_some_iff.mp hthreads
        obtain rfl := Option.some.inj hthreads
        exact congrArg _ (Pipeline.pending_receiverStep hl hpipe)
      | processorStep tmp =>
        obtain ⟨hholds, ⟨-, -, -, hpending⟩ | ⟨fd', p, v, w, hnext, -, -, -, hpending⟩⟩ :=
          Host.step_processorStep h.holds hhost
        · exact ⟨hholds, by rw [hpending]; rfl⟩
        · have hfd : fd' ≠ fd := fun hfd => by simp [localEvent, hnext, hfd] at hlocal
          refine ⟨hholds, ?_⟩
          change _ = m.streams.host.threads.pipeline.pending.filter _
          rw [hpending, List.filter_cons_of_neg (by simpa using hfd)]
    | connect fildes address tmp =>
      obtain ⟨s, -, hhost⟩ := Option.bind_eq_some_iff.mp hhost
      cases hhost
      exact ⟨h.holds, rfl⟩
    | close fildes tmp =>
      obtain ⟨s, -, hhost⟩ := Option.bind_eq_some_iff.mp hhost
      split_ifs at hhost <;> cases hhost <;> exact ⟨h.holds, rfl⟩
    | closeStatus i =>
      obtain ⟨call, -, hhost⟩ := Option.bind_eq_some_iff.mp hhost
      split_ifs at hhost
      cases hhost
      exact ⟨h.holds, rfl⟩
    | closeReturn i =>
      obtain ⟨call, -, hhost⟩ := Option.bind_eq_some_iff.mp hhost
      obtain ⟨s, -, hhost⟩ := Option.bind_eq_some_iff.mp hhost
      split_ifs at hhost
      cases hhost
      exact ⟨h.holds, rfl⟩
  exact h.congr hpipeline.1 hsock (congrArg _ hpipeline.2) rfl rfl rfl rfl rfl

/-- A step that is nothing for the connection leaves the end as it is. -/
lemma Shows.stutter (h : m.Shows fd x E rest) (hpermits : m.permits fd x e = true)
    (hlocal : m.localEvent fd e = none) (hs : m.step e = some (m', out)) : m'.Shows fd x E rest := by
  have hsock := find?_step (h.sock ▸ rfl) hpermits hlocal hs
  cases e with
  | writeReturn k =>
    obtain ⟨fildes, hk, hs⟩ := Option.bind_eq_some_iff.mp hs
    obtain ⟨s, -, hs⟩ := Option.bind_eq_some_iff.mp hs
    split_ifs at hs
    cases hs
    have hne : fildes ≠ fd := fun hfd => by simp [localEvent, hk, hfd] at hlocal
    refine h.congr h.holds hsock rfl rfl ?_ rfl rfl rfl
    have hcount := count_eraseIdx hk fd
    rwa [if_neg hne, Nat.add_zero] at hcount
  | streams e =>
    cases e with
    | host e => exact h.host hpermits hlocal hs
    | read fildes nbyte =>
      obtain ⟨w, hw, rfl⟩ := step_quiet rfl rfl hs
      obtain ⟨s, hfind, hw⟩ := Option.bind_eq_some_iff.mp hw
      cases hw
      set r : ReadCall := ⟨fildes, s.readp, i32 (UInt32.ofNat nbyte)⟩
      by_cases hfd : fildes = fd
      · simp only [permits, hfd, bne_self_eq_false, Bool.false_or, Bool.and_eq_true,
          decide_eq_true_eq, List.isEmpty_iff] at hpermits
        obtain ⟨hx, hone⟩ := hpermits
        have hreads : (m.streams.reads ++ [r]).filter (fun r => decide (r.fildes = fd)) = [r] := by
          have hr : [r].filter (fun r => decide (r.fildes = fd)) = [r] :=
            List.filter_cons_of_pos (by simpa using hfd)
          rw [List.filter_append, hr, ← readsOn, hone, List.nil_append]
        rw [hfd] at hfind
        obtain rfl := Option.some.inj (hfind.symm.trans h.sock)
        refine ⟨h.holds, hsock.trans h.sock, h.inbox, h.infos, h.wrote, h.spins, ?_, ?_, h.written,
          h.returned⟩
        · exact (congrArg List.length hreads).le
        · intro r' hr'
          obtain rfl := List.mem_singleton.mp (hreads.subst (motive := (r' ∈ ·)) hr')
          exact ⟨hx, rfl, by rw [u32_i32]⟩
      · refine h.congr h.holds hsock rfl rfl rfl ?_ rfl rfl
        have hnone : [r].filter (fun r => decide (r.fildes = fd)) = [] :=
          List.filter_cons_of_neg (by simpa using hfd)
        rw [readsOn, List.filter_append, hnone, List.append_nil, ← readsOn]
    | readReturn i =>
      obtain ⟨w, hw, rfl⟩ := step_quiet rfl rfl hs
      obtain ⟨r, hr, hw⟩ := Option.bind_eq_some_iff.mp hw
      obtain ⟨s, hfind, hw⟩ := Option.bind_eq_some_iff.mp hw
      split_ifs at hw
      obtain ⟨⟨buf, t⟩, ht, hw⟩ := Option.bind_eq_some_iff.mp hw
      cases hw
      have hne : r.fildes ≠ fd := fun hfd => by simp [localEvent, hr, hfd] at hlocal
      refine h.congr h.holds hsock rfl rfl rfl ?_ rfl ?_
      · exact filter_eraseIdx_of_neg hr (decide_eq_false hne)
      · exact (bytesOn_append fd _ _ buf).trans (by rw [if_neg hne, List.append_nil, ← returnedOn])
    | write fildes buf =>
      obtain ⟨w, hw, rfl⟩ := step_streams hs
      obtain ⟨s, hfind, hw⟩ := Option.bind_eq_some_iff.mp hw
      obtain ⟨t, ht, hw⟩ := Option.bind_eq_some_iff.mp hw
      cases hw
      have hne : fildes ≠ fd := fun hfd => by simp [localEvent, hfd] at hlocal
      refine h.congr h.holds hsock rfl ?_ (congrArg _ (List.append_nil _)) rfl ?_ rfl
      · change (m.streams.writes ++ [fildes]).count fd = _
        rw [List.count_append, List.count_singleton, if_neg (by simpa using hne), Nat.add_zero]
      · exact (bytesOn_append fd _ _ buf).trans (by rw [if_neg hne, List.append_nil, ← writtenOn])
    | writeSend i =>
      obtain ⟨w, hw, rfl⟩ := step_streams hs
      obtain ⟨fildes, hi, hw⟩ := Option.bind_eq_some_iff.mp hw
      obtain ⟨s, hfind, hw⟩ := Option.bind_eq_some_iff.mp hw
      obtain ⟨⟨t, out'⟩, ht, hw⟩ := Option.bind_eq_some_iff.mp hw
      cases hw
      have hne : fildes ≠ fd := fun hfd => by simp [localEvent, hi, hfd] at hlocal
      refine h.congr h.holds hsock rfl ?_ ?_ rfl ?_ rfl
      · have hcount := count_eraseIdx hi fd
        rwa [if_neg hne, Nat.add_zero] at hcount
      · rw [spinning, hi, Option.toList_some, List.count_append, List.count_singleton,
          if_neg (by simpa using hne), Nat.add_zero]
      · exact congrArg (bytesOn fd) (List.append_nil m.written)

/-! ### What is done with the socket -/

lemma Shows.modify (h : m.Shows fd x E rest) (v : MySocket) :
    (m.sockets.modify fd (fun _ => v)).find? fd = some v := by
  rw [OrdMap.find?_modify_self, h.sock]
  rfl

lemma Shows.write {buf : List UInt8} (h : m.Shows fd x E rest)
    (hpermits : m.permits fd x (.streams (.write fd buf)) = true)
    (hs : m.step (.streams (.write fd buf)) = some (m', out)) :
    x = .client ∧ ∃ E', E.step (.mywrite buf) = some (E', out) ∧ m'.Shows fd x E' rest ∧
      E'.sock.address = E.sock.address ∧ ∀ q ∈ out, q.info = E.sock.address := by
  simp only [permits, bne_self_eq_false, Bool.false_or, Bool.and_eq_true, decide_eq_true_eq,
    Bool.not_eq_true', List.contains_eq_mem, decide_eq_false_iff_not, List.mem_append, not_or]
    at hpermits
  obtain ⟨hx, hwrites, hspins⟩ := hpermits
  have hwrote := h.wrote
  have hspin := h.spins
  have hnone := List.count_eq_zero_of_not_mem hwrites
  have hnone' := List.count_eq_zero_of_not_mem hspins
  have hidle : E.pc = .idle := by
    cases hpc : E.pc with
    | idle => rfl
    | wrote => simp [hpc, hnone] at hwrote
    | spin => simp [hpc, hnone'] at hspin
  obtain ⟨w, hw, rfl⟩ := step_streams hs
  obtain ⟨s, hfind, hw⟩ := Option.bind_eq_some_iff.mp hw
  obtain ⟨t, ht, hw⟩ := Option.bind_eq_some_iff.mp hw
  cases hw
  obtain rfl := Option.some.inj (hfind.symm.trans h.sock)
  refine ⟨hx, { E with sock := t, pc := .wrote, written := E.written ++ buf }, ?_, ?_, ?_, nofun⟩
  · simp [Endpoint.step, hidle, ht]
  · obtain ⟨-, -, rfl⟩ := mywrite_eq_some.mp ht
    refine ⟨h.holds, h.modify _, h.inbox, h.infos, ?_, ?_, h.reads, h.reading, ?_, h.returned⟩
    · change (m.streams.writes ++ [fd]).count fd = 1
      rw [List.count_append, hnone, List.count_singleton_self]
    · exact (congrArg _ (List.append_nil _)).trans hnone'
    · rw [h.written]
      exact ((bytesOn_append fd _ _ buf).trans (by rw [if_pos rfl, ← writtenOn])).symm
  · obtain ⟨-, -, rfl⟩ := mywrite_eq_some.mp ht
    rfl

lemma Shows.writeSend {i : ℕ} (h : m.Shows fd x E rest) (hi : m.streams.writes[i]? = some fd)
    (hs : m.step (.streams (.writeSend i)) = some (m', out)) :
    ∃ E', E.step .send = some (E', out) ∧ m'.Shows fd x E' rest ∧
      E'.sock.address = E.sock.address ∧ ∀ q ∈ out, q.info = E.sock.address := by
  have hcount := count_eraseIdx hi fd
  rw [if_pos rfl, h.wrote] at hcount
  have hwrote : E.pc = .wrote := by
    by_contra hpc
    simp [hpc] at hcount
  have hspin := h.spins
  rw [if_pos hwrote] at hcount
  rw [hwrote, if_neg (by decide)] at hspin
  obtain ⟨w, hw, rfl⟩ := step_streams hs
  obtain ⟨fildes, hfd, hw⟩ := Option.bind_eq_some_iff.mp hw
  obtain ⟨s, hfind, hw⟩ := Option.bind_eq_some_iff.mp hw
  obtain ⟨⟨t, out'⟩, ht, hw⟩ := Option.bind_eq_some_iff.mp hw
  cases hw
  obtain rfl := Option.some.inj (hfd.symm.trans hi)
  obtain rfl := Option.some.inj (hfind.symm.trans h.sock)
  have hinfo : ∀ q ∈ out, q.info = E.sock.address := by
    obtain ⟨buf, -, hout⟩ := Option.bind_eq_some_iff.mp ht
    obtain ⟨-, rfl⟩ := Prod.mk.inj (Option.some.inj hout)
    exact fun q hq => by rw [List.mem_singleton.mp hq]; rfl
  refine ⟨{ E with sock := t, pc := .spin, sent := E.sent ++ out }, ?_, ?_, ?_, hinfo⟩
  · simp [Endpoint.step, hwrote, ht]
  · obtain rfl := MySocket.wrapWriteSend_eq_some ht
    refine ⟨h.holds, h.modify _, h.inbox, h.infos, ?_, ?_, h.reads, h.reading, ?_, h.returned⟩
    · exact Nat.add_right_cancel hcount
    · rw [spinning, hi, Option.toList_some, List.count_append, hspin, List.count_singleton_self]
      rfl
    · exact h.written.trans (congrArg (bytesOn fildes) (List.append_nil m.written)).symm
  · obtain rfl := MySocket.wrapWriteSend_eq_some ht
    rfl

lemma Shows.writeReturn {k : ℕ} (h : m.Shows fd x E rest) (hk : m.spins[k]? = some fd)
    (hs : m.step (.writeReturn k) = some (m', out)) :
    ∃ E', E.step .writeReturn = some (E', out) ∧ m'.Shows fd x E' rest ∧
      E'.sock.address = E.sock.address ∧ ∀ q ∈ out, q.info = E.sock.address := by
  have hcount := count_eraseIdx hk fd
  rw [if_pos rfl, h.spins] at hcount
  have hspin : E.pc = .spin := by
    by_contra hpc
    simp [hpc] at hcount
  have hwrote := h.wrote
  rw [if_pos hspin] at hcount
  rw [hspin, if_neg (by decide)] at hwrote
  obtain ⟨fildes, hfd, hs⟩ := Option.bind_eq_some_iff.mp hs
  obtain ⟨s, hfind, hs⟩ := Option.bind_eq_some_iff.mp hs
  obtain rfl := Option.some.inj (hfd.symm.trans hk)
  obtain rfl := Option.some.inj (hfind.symm.trans h.sock)
  split_ifs at hs with hwritep
  cases hs
  refine ⟨{ E with pc := .idle }, ?_, ?_, rfl, nofun⟩
  · rw [Endpoint.step, if_pos ⟨hspin, hwritep⟩]
  · exact ⟨h.holds, h.sock, h.inbox, h.infos, hwrote, Nat.add_right_cancel hcount, h.reads, h.reading,
      h.written, h.returned⟩

lemma Shows.read {i : ℕ} {r : ReadCall} (h : m.Shows fd x E rest) (hr : m.streams.reads[i]? = some r)
    (hfd : r.fildes = fd) (hs : m.step (.streams (.readReturn i)) = some (m', out)) :
    x = .server ∧ ∃ E', E.step (.read (u32 r.len).toNat) = some (E', out) ∧
      m'.Shows fd x E' rest ∧ E'.sock.address = E.sock.address ∧
      ∀ q ∈ out, q.info = E.sock.address := by
  obtain ⟨w, hw, rfl⟩ := step_quiet rfl rfl hs
  obtain ⟨r', hr', hw⟩ := Option.bind_eq_some_iff.mp hw
  obtain ⟨s, hfind, hw⟩ := Option.bind_eq_some_iff.mp hw
  obtain rfl := Option.some.inj (hr'.symm.trans hr)
  split_ifs at hw with hready
  obtain ⟨⟨buf, t⟩, ht, hw⟩ := Option.bind_eq_some_iff.mp hw
  cases hw
  rw [hfd] at hfind
  obtain rfl := Option.some.inj (hfind.symm.trans h.sock)
  have hperm := (filter_eraseIdx_perm hr (fun r => decide (r.fildes = fd))).length_eq
  rw [List.filter_cons_of_pos (by simpa using hfd), List.length_cons] at hperm
  have hone := h.reads
  obtain ⟨hx, hpast, hlen⟩ := h.reading r'
    (List.mem_filter.mpr ⟨List.mem_of_getElem? hr, by simpa using hfd⟩)
  rw [hpast] at hready
  have hnone : (m.streams.reads.eraseIdx i).filter (fun r => decide (r.fildes = fd)) = [] :=
    List.length_eq_zero_iff.mp (by rw [readsOn] at hone; omega)
  refine ⟨hx, { E with sock := t, returned := E.returned ++ buf }, ?_, ?_, ?_, nofun⟩
  · have hready' : fitsInt (E.sock.readp + r'.len) ∧ E.sock.readReady r'.len := hready
    have hwrap : Endpoint.wrapRead E.sock (u32 r'.len).toNat = some (buf, t) := by
      rw [Endpoint.wrapRead, UInt32.ofNat_toNat, hlen, if_pos hready', ht]
    simp [Endpoint.step, hwrap]
  · obtain ⟨-, -, -, -, rfl⟩ := myread_eq_some.mp ht
    refine ⟨h.holds, ?_, h.inbox, h.infos, h.wrote, h.spins, ?_, ?_, h.written, ?_⟩
    · exact hfd ▸ h.modify _
    · exact (congrArg List.length hnone).trans_le (Nat.zero_le _)
    · intro q hq
      exact absurd (hnone.subst (motive := (q ∈ ·)) hq) List.not_mem_nil
    · rw [h.returned]
      exact ((bytesOn_append fd _ _ buf).trans (by rw [if_pos hfd, ← returnedOn])).symm
  · obtain ⟨-, -, -, -, rfl⟩ := myread_eq_some.mp ht
    rfl

lemma Shows.process (h : m.Shows fd x E rest)
    (hnext : m.streams.host.nextPacket.map Prod.fst = some fd)
    (hs : m.step (.streams (.host (.threads (.processorStep tmp)))) = some (m', out)) :
    ∃ E', E.step (.process 0 tmp) = some (E', out) ∧ m'.Shows fd x E' rest ∧
      E'.sock.address = E.sock.address ∧ ∀ q ∈ out, q.info = E.sock.address := by
  obtain ⟨w, hw, rfl⟩ := step_quiet rfl rfl hs
  obtain ⟨⟨host, out'⟩, hhost, hw⟩ := Option.bind_eq_some_iff.mp hw
  cases hw
  obtain ⟨hholds, ⟨hnone, -⟩ | ⟨fd', p, v, t, hsome, hfind, ht, hsockets, hpending⟩⟩ :=
    Host.step_processorStep h.holds hhost
  · rw [hnone] at hnext
    cases hnext
  rw [hsome, Option.map_some, Option.some.injEq] at hnext
  obtain rfl : fd' = fd := hnext
  obtain rfl := Option.some.inj (hfind.symm.trans h.sock)
  have hinbox : E.inbox = p :: ((host.threads.pipeline.pending.filter
      (fun a => decide (a.1 = fd'))).map Prod.snd ++ rest) := by
    rw [h.inbox, queued, pipeline, hpending, List.filter_cons_of_pos (by simp)]
    rfl
  have hinfos := h.infos
  rw [hinbox] at hinfos
  obtain ⟨hp, hinfos⟩ := List.forall_mem_cons.mp hinfos
  obtain ⟨haddress, hreadp, hout⟩ := readIPPacket_answers hp ht
  refine ⟨{ E with
    sock := t
    inbox := E.inbox.eraseIdx 0
    sent := E.sent ++ out
    arrived := E.arrived ++ [p] }, ?_, ?_, haddress, hout⟩
  · have hdeliver : Endpoint.deliver E.sock p tmp = some (t, out) := by
      rw [Endpoint.deliver, if_pos hp.symm, ht]
    simp [Endpoint.step, hinbox, hdeliver]
  · refine ⟨hholds, ?_, ?_, ?_, h.wrote, h.spins, h.reads, ?_, h.written, h.returned⟩
    · exact (congrArg (·.find? fd') hsockets).trans (h.modify _)
    · rw [hinbox]
      rfl
    · rw [hinbox, haddress]
      exact hinfos
    · rw [hreadp]
      exact h.reading

/-- What is done with the socket is done with the end of the connection. -/
lemma Shows.acts {le : LocalEvent} (h : m.Shows fd x E rest) (hpermits : m.permits fd x e = true)
    (hlocal : m.localEvent fd e = some le) (hs : m.step e = some (m', out)) :
    Connection.OneWay .client (x, le) ∧ Connection.Fifo (x, le) ∧
      ∃ E', E.step le = some (E', out) ∧ m'.Shows fd x E' rest ∧
        E'.sock.address = E.sock.address ∧ ∀ q ∈ out, q.info = E.sock.address := by
  cases e with
  | writeReturn k =>
    simp only [localEvent, Option.ite_none_right_eq_some, Option.some.injEq] at hlocal
    obtain ⟨hk, rfl⟩ := hlocal
    exact ⟨trivial, trivial, h.writeReturn hk hs⟩
  | streams e =>
    cases e with
    | host e =>
      rcases e with (_ | _ | _ | tmp) | _ | _ | _ | _
      case threads.processorStep =>
        simp only [localEvent, Option.ite_none_right_eq_some, Option.some.injEq] at hlocal
        obtain ⟨hnext, rfl⟩ := hlocal
        exact ⟨trivial, rfl, h.process hnext hs⟩
      all_goals cases hlocal
    | read fildes nbyte => cases hlocal
    | readReturn i =>
      obtain ⟨r, hr, hlocal⟩ := Option.bind_eq_some_iff.mp hlocal
      simp only [Option.ite_none_right_eq_some, Option.some.injEq] at hlocal
      obtain ⟨hfd, rfl⟩ := hlocal
      obtain ⟨hx, hacts⟩ := h.read hr hfd hs
      exact ⟨hx, trivial, hacts⟩
    | write fildes buf =>
      simp only [localEvent, Option.ite_none_right_eq_some, Option.some.injEq] at hlocal
      obtain ⟨rfl, rfl⟩ := hlocal
      obtain ⟨hx, hacts⟩ := h.write hpermits hs
      exact ⟨hx, trivial, hacts⟩
    | writeSend i =>
      simp only [localEvent, Option.ite_none_right_eq_some, Option.some.injEq] at hlocal
      obtain ⟨hi, rfl⟩ := hlocal
      exact ⟨trivial, trivial, h.writeSend hi hs⟩

/-! ### What is received -/

/-- Packets get on their way to the socket. -/
lemma Shows.receive (h : m.Shows fd x E rest) (hout : ∀ q ∈ out, q.info.mirror = E.sock.address) :
    m.Shows fd x (E.receive out) (rest ++ out) :=
  { h with
    inbox := by rw [Endpoint.receive, h.inbox, List.append_assoc]
    infos := List.forall_mem_append.mpr ⟨h.infos, hout⟩ }

/-- The socket that `recvIPPacket` chooses for a packet. -/
def chooses (m : Machine) (p : Segment) : Option ℤ := (recvIPPacket m.sockets p).map Prod.fst

lemma ipCallback_none (hs : m.ipCallback none = some m') : m' = m := by
  unfold ipCallback at hs
  split at hs
  · exact (Option.some.inj hs).symm
  · rename_i hnone
    cases hnone
  · cases hs

lemma ipCallback_some {packet : List UInt8} (hs : m.ipCallback (some packet) = some m') :
    ∃ p w, Segment.decode packet = some p ∧
      m.streams.step (.host (.threads (.receive p))) = some w ∧
      m' = { m with streams := w.1 } := by
  unfold ipCallback at hs
  split at hs
  · rename_i hnone
    cases hnone
  · rename_i hsome
    obtain rfl := Option.some.inj hsome
    obtain ⟨p, hp, hs⟩ := Option.bind_eq_some_iff.mp hs
    obtain ⟨w, hw, hs⟩ := Option.bind_eq_some_iff.mp hs
    exact ⟨p, w, hp, hw, (Option.some.inj hs).symm⟩
  · cases hs

/-- A packet that the socket is chosen for waits for it behind the others, and any other packet is
nothing for the connection. -/
lemma Shows.ipCallback {packet : List UInt8} (h : m.Shows fd x E rest)
    (hs : m.ipCallback (some packet) = some m') : ∃ p, Segment.decode packet = some p ∧
      (m.chooses p ≠ some fd → m'.Shows fd x E rest) ∧
      (m.chooses p = some fd → ∀ rest', rest = p :: rest' → m'.Shows fd x E rest') := by
  obtain ⟨p, w, hp, hw, rfl⟩ := ipCallback_some hs
  obtain ⟨⟨host, out⟩, hhost, hw⟩ := Option.bind_eq_some_iff.mp hw
  cases hw
  obtain ⟨threads, hthreads, hhost⟩ := Option.bind_eq_some_iff.mp hhost
  cases hhost
  have hholds := Threads.step_holds h.holds hthreads
  obtain ⟨l, hl⟩ := h.holds
  obtain ⟨⟨fd', sockets⟩, hrecv, hthreads⟩ := Option.bind_eq_some_iff.mp hthreads
  obtain ⟨pipeline, hpipe, hthreads⟩ := Option.bind_eq_some_iff.mp hthreads
  obtain rfl := Option.some.inj hthreads
  have hpending : pipeline.pending = m.pipeline.pending ++ [(fd', p)] :=
    Pipeline.pending_receive hl hpipe
  have hchooses : m.chooses p = some fd' := congrArg (Option.map Prod.fst) hrecv
  refine ⟨p, hp, fun hne => ?_, fun heq rest' hrest => ?_⟩
  · have hfd : fd' ≠ fd := fun hfd => hne (hchooses.trans (congrArg some hfd))
    refine h.congr hholds ?_ ?_ rfl rfl rfl rfl rfl
    · change sockets.find? fd = m.streams.host.threads.kernel.sockets.find? fd
      by_cases hsyn : p.isSynOnly
      · obtain ⟨-, -, rfl⟩ := (recvIPPacket_syn hsyn (fits_of_recvIPPacket hrecv)).mp hrecv
        exact OrdMap.find?_modify_of_ne _ _ hfd.symm
      · obtain ⟨rfl, -⟩ := (recvIPPacket_other hsyn (fits_of_recvIPPacket hrecv)).mp hrecv
        rfl
    · refine congrArg (List.map Prod.snd) ?_
      change pipeline.pending.filter _ = _
      rw [hpending, List.filter_append, List.filter_cons_of_neg (by simpa using hfd),
        List.filter_nil, List.append_nil]
  · obtain rfl := Option.some.inj (hchooses.symm.trans heq)
    have hinfo := h.infos p (by rw [h.inbox, hrest]; simp)
    refine ⟨hholds, ?_, ?_, h.infos, h.wrote, h.spins, h.reads, h.reading, h.written, h.returned⟩
    · change sockets.find? fd' = some E.sock
      have hsock : m.streams.host.threads.kernel.sockets.find? fd' = some E.sock := h.sock
      by_cases hsyn : p.isSynOnly
      · obtain ⟨-, -, rfl⟩ := (recvIPPacket_syn hsyn (fits_of_recvIPPacket hrecv)).mp hrecv
        rw [OrdMap.find?_modify_self, hsock, Option.map_some, hinfo]
        rfl
      · obtain ⟨rfl, -⟩ := (recvIPPacket_other hsyn (fits_of_recvIPPacket hrecv)).mp hrecv
        exact h.sock
    · rw [h.inbox, hrest, queued]
      change _ = (pipeline.pending.filter _).map Prod.snd ++ rest'
      rw [hpending, List.filter_append, List.filter_cons_of_pos (by simp), List.filter_nil,
        List.map_append, List.append_assoc]
      rfl

end Machine

end ITCP
