import ITCP.Model.Host
import ITCP.Proofs.States

/-!
# Descriptors

The two maps of the kernel have the same keys, which are the descriptors from 100 up to the last one
given out: a socket that has been closed keeps its descriptor. So a call gets a descriptor of its
own exactly as long as one has never been given out.
-/

namespace ITCP
open Lib

variable {m m' : SocketSet} {p : Segment} {fd : ℤ}

lemma recvIPPacket_keys (h : recvIPPacket m p = some (fd, m')) (fd' : ℤ) :
    (m'.find? fd').isSome = (m.find? fd').isSome := by
  by_cases hp : p.isSynOnly
  · obtain ⟨-, -, rfl⟩ := (recvIPPacket_syn hp (fits_of_recvIPPacket h)).mp h
    exact OrdMap.isSome_find?_modify _ _ _ _
  · obtain ⟨rfl, -⟩ := (recvIPPacket_other hp (fits_of_recvIPPacket h)).mp h
    rfl

namespace Pipeline

variable {P : Type} [Inhabited P]

/-- Every queue is a ring that never leaves its slots. -/
structure Rings (s : Pipeline P) : Prop where
  queues : ∀ fd q, s.socketQueue.find? fd = some q → q.WF
  unSolved : s.unSolvedSocket.WF

/-- The two threads create no queues. -/
lemma Rings.receiverStep {s t : Pipeline P} (h : Rings s) (ht : s.receiverStep = some t) :
    Rings t ∧ ∀ fd, (t.socketQueue.find? fd).isSome = (s.socketQueue.find? fd).isSome := by
  unfold Pipeline.receiverStep at ht
  split at ht
  · cases ht
  · obtain ⟨q, hq, ht⟩ := Option.bind_eq_some_iff.mp ht
    obtain ⟨q', hq', ht⟩ := Option.bind_eq_some_iff.mp ht
    obtain rfl := Option.some.inj ht
    have hwf := (BlockingQueue.push_spec (h.queues _ q hq) hq').2.1
    exact ⟨⟨OrdMap.forall_modify h.queues fun _ _ => hwf, h.unSolved⟩,
      fun _ => OrdMap.isSome_find?_modify _ _ _ _⟩
  · obtain ⟨q', hq', ht⟩ := Option.bind_eq_some_iff.mp ht
    obtain rfl := Option.some.inj ht
    exact ⟨⟨h.queues, (BlockingQueue.push_spec h.unSolved hq').2.1⟩, fun _ => rfl⟩

lemma Rings.processorStep {s t : Pipeline P} (h : Rings s) (ht : s.processorStep = some t) :
    Rings t ∧ ∀ fd, (t.socketQueue.find? fd).isSome = (s.socketQueue.find? fd).isSome := by
  unfold Pipeline.processorStep at ht
  split at ht
  · obtain ⟨⟨fd, q'⟩, hq', ht⟩ := Option.bind_eq_some_iff.mp ht
    obtain rfl := Option.some.inj ht
    exact ⟨⟨h.queues, (BlockingQueue.pop_spec h.unSolved hq').1⟩, fun _ => rfl⟩
  · obtain ⟨q, hq, ht⟩ := Option.bind_eq_some_iff.mp ht
    obtain ⟨⟨p, q'⟩, hq', ht⟩ := Option.bind_eq_some_iff.mp ht
    obtain rfl := Option.some.inj ht
    have hwf := (BlockingQueue.pop_spec (h.queues _ q hq) hq').1
    exact ⟨⟨OrdMap.forall_modify h.queues fun _ _ => hwf, h.unSolved⟩,
      fun _ => OrdMap.isSome_find?_modify _ _ _ _⟩

end Pipeline

namespace Threads

/-- The two maps have the same keys, and these are the first descriptors from 100 on. -/
structure Tidy (s : Threads) : Prop where
  rings : s.pipeline.Rings
  keys : ∀ fd, (s.pipeline.socketQueue.find? fd).isSome = (s.kernel.sockets.find? fd).isSome
  range : ∀ fd, (s.kernel.sockets.find? fd).isSome → 100 ≤ fd ∧ fd ≤ 200
  below : ∀ fd fd', (s.kernel.sockets.find? fd).isSome → 100 ≤ fd' → fd' ≤ fd →
    (s.kernel.sockets.find? fd').isSome

variable {s t : Threads}

/-- What changes no set of keys keeps the maps tidy. -/
lemma Tidy.congr (h : Tidy s) (hrings : t.pipeline.Rings)
    (hqueues : ∀ fd, (t.pipeline.socketQueue.find? fd).isSome =
      (s.pipeline.socketQueue.find? fd).isSome)
    (hsockets : ∀ fd, (t.kernel.sockets.find? fd).isSome = (s.kernel.sockets.find? fd).isSome) :
    Tidy t where
  rings := hrings
  keys fd := by rw [hqueues, hsockets, h.keys]
  range fd hfd := h.range fd (hsockets fd ▸ hfd)
  below fd fd' hfd h0 hle := by
    rw [hsockets] at hfd ⊢
    exact h.below fd fd' hfd h0 hle

/-- A descriptor that is not in use lies above all that are. -/
lemma Tidy.lt_of_none (h : Tidy s) {fd fd' : ℤ} (h0 : 100 ≤ fd)
    (hnone : s.kernel.sockets.find? fd = none) (hfd' : (s.kernel.sockets.find? fd').isSome) :
    fd' < fd := by
  by_contra hle
  have hsome := h.below fd' fd hfd' h0 (not_lt.mp hle)
  rw [hnone] at hsome
  cases hsome

lemma Rings.addQueue (h : s.pipeline.Rings) (capacity : ℕ) : (s.addQueue capacity).Rings := by
  refine ⟨fun fd q hq => ?_, h.unSolved⟩
  unfold Threads.addQueue at hq
  rw [OrdMap.find?_insert] at hq
  split_ifs at hq
  · obtain rfl := Option.some.inj hq
    cases hold : s.pipeline.socketQueue.find? (freeFd s.kernel.sockets) with
    | none => exact BlockingQueue.wf_new capacity
    | some q => exact h.queues _ q hold
  · exact h.queues fd q hq

/-- A new descriptor is the first behind those in use. -/
lemma Tidy.insert (h : Tidy s) {capacity : ℕ} {v : MySocket}
    (hpipeline : t.pipeline = s.addQueue capacity)
    (hsockets : ∀ fd, (t.kernel.sockets.find? fd).isSome =
      ((s.kernel.sockets.insert (freeFd s.kernel.sockets) v).find? fd).isSome) : Tidy t := by
  obtain ⟨h100, h200, hbelow, -⟩ := freeFd_spec s.kernel.sockets
  have hmem : ∀ fd, (t.kernel.sockets.find? fd).isSome ↔
      fd = freeFd s.kernel.sockets ∨ (s.kernel.sockets.find? fd).isSome := fun fd => by
    rw [hsockets, OrdMap.isSome_find?_insert, Bool.or_eq_true, decide_eq_true_eq]
  refine ⟨hpipeline ▸ Rings.addQueue h.rings capacity, fun fd => ?_, fun fd hfd => ?_,
    fun fd fd' hfd h0 hle => ?_⟩
  · rw [hpipeline, Threads.addQueue, OrdMap.isSome_find?_insert, h.keys, hsockets,
      OrdMap.isSome_find?_insert]
  · rcases (hmem fd).mp hfd with rfl | hfd
    · exact ⟨h100, h200⟩
    · exact h.range fd hfd
  · rw [hmem]
    rcases (hmem fd).mp hfd with rfl | hfd
    · rcases lt_or_eq_of_le hle with hlt | heq
      · exact Or.inr (hbelow fd' h0 hlt)
      · exact Or.inl heq
    · exact Or.inr (h.below fd fd' hfd h0 hle)

/-- What a call does to the queues and to the socket table. -/
inductive CallStep (s : Threads) : KernelEvent → Pipeline Segment → SocketSet → Prop
  | same (e) : CallStep s e s.pipeline s.kernel.sockets
  | socket (address b) : freeFd s.kernel.sockets ≠ 200 →
      CallStep s (.socket address b) (s.addQueue 1000)
        (s.kernel.sockets.insert (freeFd s.kernel.sockets) (.create address b))
  | bind (fd : ℤ) (address) : CallStep s (.bind fd address) s.pipeline
      (s.kernel.sockets.modify fd (fun v => (v.bind address).1))
  | listen (fd : ℤ) : CallStep s (.listen fd 1) s.pipeline
      (s.kernel.sockets.modify fd (·.setStatus .listen))
  | accept (fd : ℤ) (v) : s.kernel.sockets.find? fd = some v →
      CallStep s (.accept fd) (s.addQueue 2000)
        (((s.kernel.sockets.insert (freeFd s.kernel.sockets) v).modify fd
          (·.setStatus .closed)).modify (freeFd s.kernel.sockets) (·.setStatus .listen))
  | acceptReturn (i call) : s.kernel.calls[i]? = some call → CallStep s (.acceptReturn i) s.pipeline
      (s.kernel.sockets.modify call.socket (·.setStatus .listen))

lemma callStep_step {e : KernelEvent} (ht : s.step (.call e) = some t) :
    CallStep s e t.pipeline t.kernel.sockets := by
  cases e with
  | recv | process => cases ht
  | socket address accAckReady =>
    obtain rfl := Option.some.inj ht
    simp only [createQueue, Kernel.socketCreate]
    split_ifs with hfull
    · exact .same _
    · exact .socket address accAckReady hfull
  | bind fd address =>
    obtain rfl := Option.some.inj ht
    exact .bind fd address
  | listen fd backlog =>
    obtain ⟨kernel, hk, ht⟩ := Option.bind_eq_some_iff.mp ht
    obtain rfl := Option.some.inj ht
    simp only [Kernel.step, Kernel.socketListen] at hk
    split_ifs at hk with hbacklog hfd
    · obtain rfl := Option.some.inj hk
      exact .same _
    · obtain rfl := Option.some.inj hk
      obtain rfl := not_not.mp hbacklog
      exact .listen fd
  | accept fd =>
    obtain ⟨kernel, hk, ht⟩ := Option.bind_eq_some_iff.mp ht
    obtain rfl := Option.some.inj ht
    obtain ⟨v, hv, hk⟩ := Option.bind_eq_some_iff.mp hk
    obtain rfl := Option.some.inj hk
    exact .accept fd v hv
  | acceptReturn i =>
    obtain ⟨kernel, hk, ht⟩ := Option.bind_eq_some_iff.mp ht
    obtain rfl := Option.some.inj ht
    obtain ⟨call, hcall, hk⟩ := Option.bind_eq_some_iff.mp hk
    obtain ⟨v, hv, hk⟩ := Option.bind_eq_some_iff.mp hk
    split_ifs at hk
    obtain rfl := Option.some.inj hk
    exact .acceptReturn i call hcall

lemma Tidy.call {e : KernelEvent} (h : Tidy s) (ht : s.step (.call e) = some t) : Tidy t := by
  have hstep := callStep_step ht
  generalize hp : t.pipeline = pipeline at hstep
  generalize hm : t.kernel.sockets = m at hstep
  have hqueues : pipeline = s.pipeline → t.pipeline.Rings ∧ ∀ fd,
      (t.pipeline.socketQueue.find? fd).isSome = (s.pipeline.socketQueue.find? fd).isSome := by
    rintro rfl
    exact ⟨hp ▸ h.rings, fun _ => by rw [hp]⟩
  cases hstep with
  | same => exact h.congr (hqueues rfl).1 (hqueues rfl).2 fun _ => by rw [hm]
  | socket address b hfull => exact h.insert hp fun _ => by rw [hm]
  | bind | listen | acceptReturn =>
    exact h.congr (hqueues rfl).1 (hqueues rfl).2 fun _ => by rw [hm, OrdMap.isSome_find?_modify]
  | accept fd v hv =>
    exact h.insert hp fun _ => by
      rw [hm, OrdMap.isSome_find?_modify, OrdMap.isSome_find?_modify]

lemma Tidy.step {e : ThreadsEvent} (h : Tidy s) (ht : s.step e = some t) : Tidy t := by
  cases e with
  | call e => exact h.call ht
  | receive p =>
    obtain ⟨⟨fd, sockets⟩, hrecv, ht⟩ := Option.bind_eq_some_iff.mp ht
    obtain ⟨pipeline, hpipe, ht⟩ := Option.bind_eq_some_iff.mp ht
    obtain rfl := Option.some.inj ht
    simp only [Pipeline.step] at hpipe
    split at hpipe
    · split_ifs at hpipe
      obtain rfl := Option.some.inj hpipe
      exact h.congr ⟨h.rings.queues, h.rings.unSolved⟩ (fun _ => rfl) (recvIPPacket_keys hrecv)
    · cases hpipe
  | receiverStep =>
    obtain ⟨pipeline, hpipe, ht⟩ := Option.bind_eq_some_iff.mp ht
    obtain rfl := Option.some.inj ht
    obtain ⟨hrings, hqueues⟩ := h.rings.receiverStep hpipe
    exact h.congr hrings hqueues (fun _ => rfl)
  | processorStep tmp =>
    obtain ⟨pipeline, hpipe, ht⟩ := Option.bind_eq_some_iff.mp ht
    obtain ⟨hrings, hqueues⟩ := h.rings.processorStep hpipe
    split at ht
    · obtain rfl := Option.some.inj ht
      exact h.congr hrings hqueues (fun _ => rfl)
    · obtain ⟨kernel, hread, ht⟩ := Option.bind_eq_some_iff.mp ht
      obtain rfl := Option.some.inj ht
      obtain ⟨q, -, hread⟩ := Option.bind_eq_some_iff.mp hread
      obtain ⟨⟨p, q'⟩, -, hread⟩ := Option.bind_eq_some_iff.mp hread
      obtain ⟨sock, -, hread⟩ := Option.bind_eq_some_iff.mp hread
      obtain ⟨⟨u, out⟩, -, hread⟩ := Option.bind_eq_some_iff.mp hread
      obtain rfl := Option.some.inj hread
      exact h.congr hrings hqueues (fun _ => OrdMap.isSome_find?_modify _ _ _ _)

end Threads

namespace Host

variable {s t : Host} {e : HostEvent}

lemma next_eq_some : s.next e = some t ↔ ∃ out, s.step e = some (t, out) := by
  unfold next
  rw [Option.map_eq_some_iff]
  exact ⟨fun ⟨⟨_, out⟩, h, he⟩ => ⟨out, he ▸ h⟩, fun ⟨out, h⟩ => ⟨_, h, rfl⟩⟩

lemma tidy_setSockets {m : SocketSet} (h : s.threads.Tidy)
    (hm : ∀ fd, (m.find? fd).isSome = (s.sockets.find? fd).isSome) :
    (s.setSockets m).threads.Tidy :=
  h.congr h.rings (fun _ => rfl) hm

lemma tidy_next (h : s.threads.Tidy) (ht : s.next e = some t) : t.threads.Tidy := by
  obtain ⟨out, ht⟩ := next_eq_some.mp ht
  cases e with
  | threads e =>
    obtain ⟨threads, hthreads, ht⟩ := Option.bind_eq_some_iff.mp ht
    cases ht
    exact h.step hthreads
  | connect fd address tmp =>
    obtain ⟨v, hv, ht⟩ := Option.bind_eq_some_iff.mp ht
    cases ht
    exact tidy_setSockets h (fun _ => OrdMap.isSome_find?_modify _ _ _ _)
  | close fildes tmp =>
    obtain ⟨v, hv, ht⟩ := Option.bind_eq_some_iff.mp ht
    split_ifs at ht
    · cases ht
      exact h
    · cases ht
      exact h
  | closeStatus i =>
    obtain ⟨call, hcall, ht⟩ := Option.bind_eq_some_iff.mp ht
    split_ifs at ht
    cases ht
    exact tidy_setSockets h (fun _ => OrdMap.isSome_find?_modify _ _ _ _)
  | closeReturn i =>
    obtain ⟨call, hcall, ht⟩ := Option.bind_eq_some_iff.mp ht
    obtain ⟨v, hv, ht⟩ := Option.bind_eq_some_iff.mp ht
    split_ifs at ht
    cases ht
    exact h

lemma tidy_init : init.threads.Tidy where
  rings := ⟨fun _ _ hq => (nomatch hq), BlockingQueue.wf_new 2000⟩
  keys _ := rfl
  range _ hfd := by cases hfd
  below _ _ hfd := by cases hfd

lemma tidy_of_run {es : List HostEvent} (h : run next init es = some s) : s.threads.Tidy :=
  run_invariant (I := fun s => s.threads.Tidy) (fun _ _ _ hs ht => tidy_next hs ht) tidy_init h

/-! ### Allocation -/

/-- The descriptor that a call of `socket` or `accept` reports. -/
def reported (s : Host) : ℤ := freeFd s.sockets

/-- The socket record and the capacity of the queue that a call of `socket` or `accept` allocates. -/
def allocation (s : Host) : HostEvent → Option (MySocket × ℕ)
  | .threads (.call (.socket address accAckReady)) => some (.create address accAckReady, 1000)
  | .threads (.call (.accept fd)) => (s.sockets.find? fd).map (fun v => (v.setStatus .listen, 2000))
  | _ => none

/-- A socket that has been created, and for which no call of `close` has returned. -/
def isOpen (s : Host) (fd : ℤ) : Bool :=
  (s.sockets.find? fd).isSome && !s.closes.any (fun c => c.fildes == fd && c.pc == .returned)

def openSockets (s : Host) : List ℤ := (s.sockets.entries.map Prod.fst).filter s.isOpen

/-- A call does what it should: a descriptor that it reports is not open, and names a record and a
queue that were not there before; an error leaves both maps as they are; and there is no error
while fewer than 100 sockets are open. -/
structure Allocates (s t : Host) (v : MySocket) (capacity : ℕ) : Prop where
  notOpen : 0 ≤ s.reported → ¬s.isOpen s.reported
  absent : 0 ≤ s.reported → s.sockets.find? s.reported = none ∧ s.socketQueue.find? s.reported = none
  present : 0 ≤ s.reported → t.sockets.find? s.reported = some v ∧
    t.socketQueue.find? s.reported = some (.new capacity)
  error : s.reported < 0 → t.sockets = s.sockets ∧ t.socketQueue = s.socketQueue
  available : s.openSockets.length < 100 → 0 ≤ s.reported

/-- Some descriptor of the range has never been given out. The range of `accept` ends with 200. -/
def HasRoom (s : Host) : HostEvent → Prop
  | .threads (.call (.accept _)) => ∃ fd, 100 ≤ fd ∧ fd ≤ 200 ∧ s.sockets.find? fd = none
  | _ => ∃ fd, 100 ≤ fd ∧ fd < 200 ∧ s.sockets.find? fd = none

lemma reported_of_none {fd : ℤ} (h0 : 100 ≤ fd) (h200 : fd ≤ 200)
    (hnone : s.sockets.find? fd = none) : s.sockets.find? s.reported = none := by
  obtain ⟨hle, hle', hbelow, hfree⟩ := freeFd_spec s.sockets
  by_cases hne : freeFd s.sockets = 200
  · rcases lt_or_eq_of_le h200 with hlt | rfl
    · have hsome := hbelow fd h0 (hne ▸ hlt)
      rw [hnone] at hsome
      cases hsome
    · rw [reported, hne, hnone]
  · exact hfree hne

/-- With a descriptor that has not been given out, allocation does what it should. -/
lemma allocates_of_none (h : s.threads.Tidy) (hnone : s.sockets.find? s.reported = none)
    {v : MySocket} {capacity : ℕ} (hv : t.sockets.find? s.reported = some v)
    (hq : t.threads.pipeline = s.threads.addQueue capacity) : Allocates s t v capacity := by
  have h100 : 0 ≤ s.reported := (by decide : (0 : ℤ) ≤ 100).trans (freeFd_spec s.sockets).1
  have hqueue : s.socketQueue.find? s.reported = none := by
    have hkeys := h.keys s.reported
    change _ = (s.sockets.find? s.reported).isSome at hkeys
    rw [hnone] at hkeys
    exact Option.isNone_iff_eq_none.mp (Option.isSome_eq_false_iff.mp hkeys)
  refine ⟨fun _ hopen => ?_, fun _ => ⟨hnone, hqueue⟩, fun _ => ⟨hv, ?_⟩, fun hneg => ?_, fun _ => h100⟩
  · rw [isOpen, hnone] at hopen
    cases hopen
  · rw [socketQueue, hq]
    exact OrdMap.find?_insert_self _ hqueue
  · exact absurd h100 (not_le.mpr hneg)

lemma socket_eq_some {address : Tuple4} {b : Bool}
    (ht : s.next (.threads (.call (.socket address b))) = some t) :
    t.sockets = (if s.reported = 200 then s.sockets
      else s.sockets.insert s.reported (.create address b)) ∧
    (s.reported ≠ 200 → t.threads.pipeline = s.threads.addQueue 1000) := by
  obtain ⟨out, ht⟩ := next_eq_some.mp ht
  cases ht
  refine ⟨?_, fun hne => if_neg hne⟩
  by_cases hfull : s.reported = 200
  · rw [if_pos hfull]
    exact congrArg Kernel.sockets (if_pos hfull)
  · rw [if_neg hfull]
    exact congrArg Kernel.sockets (if_neg hfull)

lemma accept_eq_some {fd : ℤ} {v : MySocket} (hv : s.sockets.find? fd = some v)
    (ht : s.next (.threads (.call (.accept fd))) = some t) :
    t.sockets = (((s.sockets.insert s.reported v).modify fd (·.setStatus .closed)).modify s.reported
      (·.setStatus .listen)) ∧ t.threads.pipeline = s.threads.addQueue 2000 := by
  obtain ⟨out, ht⟩ := next_eq_some.mp ht
  obtain ⟨threads, hthreads, ht⟩ := Option.bind_eq_some_iff.mp ht
  cases ht
  obtain ⟨kernel, hk, hthreads⟩ := Option.bind_eq_some_iff.mp hthreads
  obtain rfl := Option.some.inj hthreads
  obtain ⟨v', hv', hk⟩ := Option.bind_eq_some_iff.mp hk
  obtain rfl := Option.some.inj hk
  obtain rfl := Option.some.inj (hv'.symm.trans hv)
  exact ⟨rfl, rfl⟩

/-- In every reachable state a call of `socket` or `accept` allocates as it should exactly when some
descriptor of its range has never been given out: closed sockets keep theirs, and when all are in
use the call still reports one. -/
theorem descriptor_allocation {es : List HostEvent} {v : MySocket} {capacity : ℕ}
    (hs : run next init es = some s) (he : s.allocation e = some (v, capacity))
    (ht : s.next e = some t) : Allocates s t v capacity ↔ HasRoom s e := by
  have htidy := tidy_of_run hs
  obtain ⟨h100, h200, hbelow, hfree⟩ := freeFd_spec s.sockets
  have hpos : 0 ≤ s.reported := (by decide : (0 : ℤ) ≤ 100).trans h100
  unfold allocation at he
  split at he
  · obtain ⟨rfl, rfl⟩ := Prod.mk.inj (Option.some.inj he)
    obtain ⟨hsockets, hpipeline⟩ := socket_eq_some ht
    constructor
    · intro h
      have hnone := (h.absent hpos).1
      have hv := (h.present hpos).1
      refine ⟨s.reported, h100, lt_of_le_of_ne h200 fun hfull => ?_, hnone⟩
      rw [hsockets, if_pos hfull, hnone] at hv
      cases hv
    · rintro ⟨fd, h0, hlt, hnone⟩
      have hne : s.reported ≠ 200 := fun hfull => by
        have hsome := hbelow fd h0 (hlt.trans_eq hfull.symm)
        rw [hnone] at hsome
        cases hsome
      refine allocates_of_none htidy (hfree hne) ?_ (hpipeline hne)
      rw [hsockets, if_neg hne]
      exact OrdMap.find?_insert_self _ (hfree hne)
  · rename_i fd
    obtain ⟨w, hw, he⟩ := Option.map_eq_some_iff.mp he
    obtain ⟨rfl, rfl⟩ := Prod.mk.inj he
    obtain ⟨hsockets, hpipeline⟩ := accept_eq_some hw ht
    constructor
    · exact fun h => ⟨s.reported, h100, h200, (h.absent hpos).1⟩
    · rintro ⟨fd', h0, hle, hnone⟩
      have hnone := reported_of_none h0 hle hnone
      refine allocates_of_none htidy hnone ?_ hpipeline
      have hne : s.reported ≠ fd := fun heq => by
        rw [heq, hw] at hnone
        cases hnone
      rw [hsockets, OrdMap.find?_modify_self, OrdMap.find?_modify_of_ne _ _ hne,
        OrdMap.find?_insert_self _ hnone, Option.map_some]
  · cases he

/-! ### Running out of descriptors -/

/-- A call of `socket`; the address is what the constructor leaves in the record. -/
def socketCall : HostEvent := .threads (.call (.socket default false))

/-- The calls take the descriptors in turn. -/
lemma run_socketCalls {n : ℕ} (hn : n ≤ 100) :
    ∃ s, run next init (List.replicate n socketCall) = some s ∧
    ∀ fd, (s.sockets.find? fd).isSome ↔ 100 ≤ fd ∧ fd < 100 + n := by
  induction n with
  | zero => exact ⟨init, rfl, fun fd => ⟨nofun, fun h => by omega⟩⟩
  | succ n ih =>
    obtain ⟨s, hs, hkeys⟩ := ih (by omega)
    obtain ⟨h100, h200, hbelow, hfree⟩ := freeFd_spec s.sockets
    have hge : 100 + n ≤ s.reported := by
      by_contra hlt
      have hnone := hfree (by unfold reported at hlt; omega)
      have hsome := (hkeys s.reported).mpr ⟨h100, not_le.mp hlt⟩
      rw [reported, hnone] at hsome
      cases hsome
    have hfd : s.reported = 100 + n := by
      refine le_antisymm (not_lt.mp fun hlt => ?_) hge
      have hsome := (hkeys (100 + n)).mp (hbelow (100 + n) (by omega) hlt)
      omega
    obtain ⟨t, ht⟩ : ∃ t, s.next socketCall = some t := ⟨_, rfl⟩
    refine ⟨t, ?_, fun fd => ?_⟩
    · rw [List.replicate_succ', run_append, hs, Option.bind_some]
      exact run_cons_eq_some.mpr ⟨t, ht, rfl⟩
    · rw [(socket_eq_some ht).1, if_neg (by omega), OrdMap.isSome_find?_insert, Bool.or_eq_true,
        decide_eq_true_eq, hkeys, hfd]
      omega

/-- The first call gets descriptor 100. -/
theorem descriptor_allocation_first : ∃ t, init.next socketCall = some t ∧
    Allocates init t (.create default false) 1000 := by
  have hroom : HasRoom init socketCall := ⟨100, by decide, by decide, rfl⟩
  have ht : init.next socketCall = some _ := rfl
  exact ⟨_, ht, (descriptor_allocation (run_nil _ _) rfl ht).mpr hroom⟩

/-- With 100 sockets the next call reports descriptor 200, and there is no such socket. -/
theorem descriptor_allocation_exhausted : ∃ s t,
    run next init (List.replicate 100 socketCall) = some s ∧ s.next socketCall = some t ∧
    s.reported = 200 ∧ t.sockets.find? 200 = none ∧
    ¬Allocates s t (.create default false) 1000 := by
  obtain ⟨s, hs, hkeys⟩ := run_socketCalls (le_refl 100)
  obtain ⟨h100, h200, -, hfree⟩ := freeFd_spec s.sockets
  have hfd : s.reported = 200 := by
    by_contra hne
    have hsome := (hkeys s.reported).mpr ⟨h100, lt_of_le_of_ne h200 hne⟩
    rw [reported, hfree hne] at hsome
    cases hsome
  obtain ⟨t, ht⟩ : ∃ t, s.next socketCall = some t := ⟨_, rfl⟩
  have hnone : t.sockets.find? 200 = none := by
    rw [(socket_eq_some ht).1, if_pos hfd, ← Option.not_isSome_iff_eq_none, hkeys]
    decide
  refine ⟨s, t, hs, ht, hfd, hnone, fun h => ?_⟩
  have hv := (h.present (hfd ▸ by decide)).1
  rw [hfd, hnone] at hv
  cases hv

end Host

end ITCP
