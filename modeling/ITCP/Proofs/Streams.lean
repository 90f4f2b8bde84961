import ITCP.Model.Streams
import ITCP.Proofs.Copies
import ITCP.Proofs.Reassembly
import ITCP.Proofs.Receive
import ITCP.Proofs.Reuse

/-!
# What a step does to the streams

The buffer and the three offsets of a socket change where a packet gets to `recvTCPPacket`, where a
read returns, and in the two sections of a write. All other steps leave them alone.
-/

namespace ITCP
open Lib

namespace MySocket

variable {s t : MySocket} {p : Segment} {tmp : UInt8} {out : List Segment}

lemma sameStream_setStatus (s : MySocket) (x : Status) : SameStream s (s.setStatus x) :=
  ⟨rfl, rfl, rfl, rfl⟩

lemma sameStream_bind (s : MySocket) (address : Tuple4) : SameStream s (s.bind address).1 := by
  unfold MySocket.bind
  split_ifs
  · exact .refl s
  · exact ⟨rfl, rfl, rfl, rfl⟩

/-- A packet leaves the stream alone, or it gets to `recvTCPPacket`. -/
lemma readIPPacket_stream (h : s.readIPPacket p tmp = some (t, out)) :
    s.Transfers p ∧ (s.located p).recvTCPPacket p tmp = some (t, out) ∨
      ¬s.Transfers p ∧ SameStream s t := by
  by_cases hp : s.Transfers p
  · rw [readIPPacket_of_transfers hp (fits_of_readIPPacket h)] at h
    exact Or.inl ⟨hp, h⟩
  refine Or.inr ⟨hp, (s.sameStream_located p).trans ?_⟩
  cases readIPPacket_reads h with
  | synAck | syn | crossing | accAck => exact ⟨rfl, rfl, rfl, rfl⟩
  | fin | ack => exact sameStream_setStatus _ _
  | data hsyn hfin hack =>
    rw [located_tcb] at hack
    exact absurd ⟨hsyn, hfin, hack⟩ hp
  | ignored => exact .refl _

end MySocket

/-- The log grows by the packet that is processed, and in no other way. -/
lemma Host.log_threads {h : Host} {e : ThreadsEvent} {threads : Threads}
    (ht : h.threads.step e = some threads) :
    threads.kernel.log = h.threads.kernel.log ∧ (∀ tmp, e = .processorStep tmp → h.nextPacket = none) ∨
      ∃ tmp fd p s t out, e = .processorStep tmp ∧ h.nextPacket = some (fd, p) ∧
        h.sockets.find? fd = some s ∧ s.readIPPacket p tmp = some (t, out) ∧
        threads.kernel.sockets = h.sockets.modify fd (fun _ => t) ∧
        threads.kernel.log = h.threads.kernel.log ++
          [⟨fd, p, s.tcb.status, t.tcb.status, out⟩] := by
  cases e with
  | call e =>
    obtain ⟨-, hprocess, kernel, hk, rfl⟩ := Threads.step_call_eq_some ht
    exact Or.inl ⟨Kernel.step_log hk hprocess, nofun⟩
  | receive p =>
    obtain ⟨_, -, ht⟩ := Option.bind_eq_some_iff.mp ht
    obtain ⟨_, -, ht⟩ := Option.bind_eq_some_iff.mp ht
    cases ht
    exact Or.inl ⟨rfl, nofun⟩
  | receiverStep =>
    obtain ⟨_, -, ht⟩ := Option.bind_eq_some_iff.mp ht
    cases ht
    exact Or.inl ⟨rfl, nofun⟩
  | processorStep tmp =>
    rcases Host.processorStep_cases ht with ⟨hp, hk⟩ | ⟨fd, p, s, t, out, hp, hs, hread, hk⟩
    · exact Or.inl ⟨congrArg Kernel.log hk, fun _ _ => hp⟩
    · exact Or.inr ⟨tmp, fd, p, s, t, out, rfl, hp, hs, hread, congrArg Kernel.sockets hk,
        congrArg Kernel.log hk⟩

namespace Streams

lemma next_eq_some {v w : Streams} {e : StreamsEvent} :
    v.next e = some w ↔ ∃ out, v.step e = some (w, out) := by
  unfold next
  rw [Option.map_eq_some_iff]
  constructor
  · rintro ⟨⟨w', out⟩, h, rfl⟩
    exact ⟨out, h⟩
  · rintro ⟨out, h⟩
    exact ⟨(w, out), h, rfl⟩

/-- A value that is computed from a socket of the state that a run has led to. -/
lemma exists_socket {α : Type} {o : Option Streams} {fd : ℤ} {f : MySocket → α} {a : α}
    (h : o.map (fun v => (v.sockets.find? fd).map f) = some (some a)) :
    ∃ v s, o = some v ∧ v.sockets.find? fd = some s ∧ f s = a := by
  obtain ⟨v, hv, h⟩ := Option.map_eq_some_iff.mp h
  obtain ⟨s, hs, h⟩ := Option.map_eq_some_iff.mp h
  exact ⟨v, s, hv, hs, h⟩

/-- What a step can do to the socket table. -/
inductive TableStep (v : Streams) : StreamsEvent → SocketSet → Prop
  | host (e m) : v.host.TableStep e m → TableStep v (.host e) m
  | read (fildes nbyte) : TableStep v (.read fildes nbyte) v.sockets
  | readReturn (i r s buf t) : v.reads[i]? = some r → v.sockets.find? r.fildes = some s →
      r.pastread + r.len ≤ s.sizep → s.myread r.len = some (buf, t) →
      TableStep v (.readReturn i) (v.sockets.modify r.fildes (fun _ => t))
  | write (fildes buf s t) : v.sockets.find? fildes = some s → s.mywrite buf = some t →
      TableStep v (.write fildes buf) (v.sockets.modify fildes (fun _ => t))
  | writeSend (i fildes s t out) : v.writes[i]? = some fildes → v.sockets.find? fildes = some s →
      s.wrapWriteSend = some (t, out) →
      TableStep v (.writeSend i) (v.sockets.modify fildes (fun _ => t))

variable {v w : Streams} {e : StreamsEvent}

lemma tableStep_next (hw : v.next e = some w) : v.TableStep e w.sockets := by
  obtain ⟨out, hw⟩ := next_eq_some.mp hw
  cases e with
  | host e =>
    obtain ⟨⟨host, out'⟩, hhost, hw⟩ := Option.bind_eq_some_iff.mp hw
    cases hw
    exact .host e _ (Host.tableStep_next (Host.next_eq_some.mpr ⟨_, hhost⟩))
  | read fildes nbyte =>
    obtain ⟨s, hs, hw⟩ := Option.bind_eq_some_iff.mp hw
    cases hw
    exact .read fildes nbyte
  | readReturn i =>
    obtain ⟨r, hr, hw⟩ := Option.bind_eq_some_iff.mp hw
    obtain ⟨s, hs, hw⟩ := Option.bind_eq_some_iff.mp hw
    split_ifs at hw with hready
    obtain ⟨⟨buf, t⟩, ht, hw⟩ := Option.bind_eq_some_iff.mp hw
    cases hw
    exact .readReturn i r s buf t hr hs (not_lt.mp hready.2) ht
  | write fildes buf =>
    obtain ⟨s, hs, hw⟩ := Option.bind_eq_some_iff.mp hw
    obtain ⟨t, ht, hw⟩ := Option.bind_eq_some_iff.mp hw
    cases hw
    exact .write fildes buf s t hs ht
  | writeSend i =>
    obtain ⟨fildes, hfildes, hw⟩ := Option.bind_eq_some_iff.mp hw
    obtain ⟨s, hs, hw⟩ := Option.bind_eq_some_iff.mp hw
    obtain ⟨⟨t, out'⟩, ht, hw⟩ := Option.bind_eq_some_iff.mp hw
    cases hw
    exact .writeSend i fildes s t _ hfildes hs ht

/-- The packet that the step processes, and its socket. -/
def processing (v : Streams) : StreamsEvent → Option (MySocket × Segment)
  | .host (.threads (.processorStep _)) => do
    let (fd, p) ← v.host.nextPacket
    let s ← v.sockets.find? fd
    some (s, p)
  | _ => none

lemma processing_eq_some {fd : ℤ} {s : MySocket} {p : Segment} (tmp : UInt8)
    (hp : v.host.nextPacket = some (fd, p)) (hs : v.sockets.find? fd = some s) :
    v.processing (.host (.threads (.processorStep tmp))) = some (s, p) :=
  Option.bind_eq_some_iff.mpr ⟨_, hp, Option.bind_eq_some_iff.mpr ⟨s, hs, rfl⟩⟩

/-- A property of streams holds of all sockets after a step if it holds of all before, the stream of
a new socket has it, and the operations on streams keep it. -/
lemma forall_next {P : MySocket → Prop} (hcreate : ∀ address b, P (.create address b))
    (hsame : ∀ s t, SameStream s t → P s → P t)
    (hpacket : ∀ s p tmp t out, v.processing e = some (s, p) → P s → s.Transfers p →
      (s.located p).recvTCPPacket p tmp = some (t, out) → P t)
    (hread : ∀ i r s buf t, e = .readReturn i → v.reads[i]? = some r →
      v.sockets.find? r.fildes = some s → r.pastread + r.len ≤ s.sizep →
      s.myread r.len = some (buf, t) → P s → P t)
    (hwrite : ∀ s buf t, s.mywrite buf = some t → P s → P t)
    (hsend : ∀ s t out, s.wrapWriteSend = some (t, out) → P s → P t)
    (hv : ∀ fd s, v.sockets.find? fd = some s → P s) (hw : v.next e = some w) :
    ∀ fd s, w.sockets.find? fd = some s → P s := by
  have hstep := tableStep_next hw
  generalize w.sockets = m at hstep ⊢
  have hstatus : ∀ s x, P s → P (s.setStatus x) := fun s x => hsame s _ (s.sameStream_setStatus x)
  cases hstep with
  | host e m hstep =>
    cases hstep with
    | same => exact hv
    | socket address b => exact OrdMap.forall_insert hv (hcreate address b)
    | bind fd address =>
      exact OrdMap.forall_modify hv fun s hs => hsame s _ (s.sameStream_bind address) (hv _ s hs)
    | listen fd => exact OrdMap.forall_modify hv fun s hs => hstatus s _ (hv _ s hs)
    | accept fd s hs =>
      have hinsert := OrdMap.forall_insert (k := freeFd v.sockets) hv (hv _ s hs)
      have hclosed := OrdMap.forall_modify (k := fd) (f := (·.setStatus .closed)) hinsert
        fun s hs => hstatus s _ (hinsert _ s hs)
      exact OrdMap.forall_modify hclosed fun s hs => hstatus s _ (hclosed _ s hs)
    | acceptReturn i call => exact OrdMap.forall_modify hv fun s hs => hstatus s _ (hv _ s hs)
    | syn p fd s =>
      exact OrdMap.forall_modify hv fun s hs => hsame s _ ⟨rfl, rfl, rfl, rfl⟩ (hv _ s hs)
    | process tmp fd p s t out hp hs ht =>
      refine OrdMap.forall_modify hv fun _ _ => ?_
      rcases MySocket.readIPPacket_stream ht with ⟨htransfers, hrecv⟩ | ⟨-, hstream⟩
      · exact hpacket s p tmp t out (processing_eq_some tmp hp hs) (hv fd s hs) htransfers hrecv
      · exact hsame s t hstream (hv fd s hs)
    | connect fd address tmp s hs =>
      exact OrdMap.forall_modify hv fun _ _ => hsame s _ ⟨rfl, rfl, rfl, rfl⟩ (hv fd s hs)
    | closeStatus i call => exact OrdMap.forall_modify hv fun s hs => hstatus s _ (hv _ s hs)
  | read => exact hv
  | readReturn i r s buf t hr hs hready ht =>
    exact OrdMap.forall_modify hv fun _ _ => hread i r s buf t rfl hr hs hready ht (hv _ s hs)
  | write fildes buf s t hs ht =>
    exact OrdMap.forall_modify hv fun _ _ => hwrite s buf t ht (hv _ s hs)
  | writeSend i fildes s t out hfildes hs ht =>
    exact OrdMap.forall_modify hv fun _ _ => hsend s t out ht (hv _ s hs)

end Streams

end ITCP
