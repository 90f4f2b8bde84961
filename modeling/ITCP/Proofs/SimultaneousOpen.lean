import ITCP.Model.Pair
import ITCP.Proofs.Reuse

/-!
# Simultaneous open

`readIPPacket` has a branch for a SYN that reaches a socket in SYNSENT, but `recvIPPacket` hands a
SYN to listening sockets only. When both ends of a connection call `connect`, their SYNs are never
queued on the sockets they are for.
-/

namespace ITCP
open Lib

variable {m : SocketSet} {p : Segment} {fd : ℤ} {v : MySocket}

/-- No SYN is queued on a socket in SYNSENT. -/
lemma not_queues_syn {t : Tables} (hp : p.isSynOnly) (hv : t.sockets.find? fd = some v)
    (hst : v.tcb.status = .synsent) : ¬t.Queues p fd := by
  intro h
  cases hrecv : recvIPPacket t.sockets p with
  | none =>
    unfold Tables.Queues Tables.recv at h
    rw [hrecv] at h
    rcases h with ⟨u, hu, -⟩ | ⟨hu, -⟩ <;> cases hu
  | some a =>
    obtain rfl := h.eq hrecv
    obtain ⟨⟨w, hw, hlistens⟩, -, -⟩ := (recvIPPacket_syn hp (fits_of_recvIPPacket hrecv)).mp hrecv
    obtain rfl := Option.some.inj (hv.symm.trans hw)
    simp [MySocket.listensFor, hst] at hlistens

namespace Pair

variable {s t : Pair} {fd : Bool → ℤ} {address : Tuple4} {tmp : Bool → UInt8}

/-- The SYN on its way to a socket is queued on it, and is expected there; and when nothing is left
to do both sockets are connected. -/
structure Opened (s : Pair) (fd : Bool → ℤ) : Prop where
  queued : ∀ x p v, p ∈ s.inFlight x → p.isSynOnly → (s.host x).sockets.find? (fd x) = some v →
    v.address = p.info.mirror →
    v.tcb.status = .synsent ∧ (s.host x).threads.tables.Queues p (fd x)
  connected : s.Quiet → ∀ x, ∃ v, (s.host x).sockets.find? (fd x) = some v ∧
    v.tcb.status = .estab ∧ v.connReady

/-- After both calls of `connect` every state reached is as it should be. -/
def SimultaneousOpen (s : Pair) (fd : Bool → ℤ) (address : Tuple4) (tmp : Bool → UInt8) : Prop :=
  ∀ es t, (∀ e ∈ es, Network e) → run step s (connects fd address tmp ++ es) = some t → t.Opened fd

/-- The tuple of a host. -/
def tuple (address : Tuple4) (x : Bool) : Tuple4 := if x then address.mirror else address

/-- The SYN of the other host, on its way to `x`. -/
def synTo (address : Tuple4) (tmp : Bool → UInt8) (x : Bool) : Segment :=
  sendTCPPacket [tmp (!x)] (tuple address !x) 0 0 (setSyn 0)

/-- A host after its call of `connect`. -/
def connected (h : Host) (fd : ℤ) (v : MySocket) (address : Tuple4) (tmp : UInt8) : Host :=
  h.setSockets (h.sockets.modify fd (fun _ => (v.wrapConnect address tmp).1))

lemma step_connect {x : Bool} {v : MySocket} {fd : ℤ} {tmp : UInt8}
    (hv : (s.host x).sockets.find? fd = some v) :
    s.step (.host x (.connect fd address tmp)) =
      some ⟨Function.update s.host x (connected (s.host x) fd v address tmp),
        Function.update s.inFlight (!x)
          (s.inFlight (!x) ++ [sendTCPPacket [tmp] address 0 0 (setSyn 0)])⟩ := by
  simp only [step, Host.step, hv, Option.bind_eq_bind, Option.bind_some]
  rfl

lemma connects_eq_some {v : Bool → MySocket}
    (hv : ∀ x, (s.host x).sockets.find? (fd x) = some (v x)) :
    run step s (connects fd address tmp) = some
      ⟨fun x => connected (s.host x) (fd x) (v x) (tuple address x) (tmp x),
        fun x => s.inFlight x ++ [synTo address tmp x]⟩ := by
  rw [connects, run_cons, step_connect (hv false), Option.bind_some, run_cons,
    step_connect (v := v true) (by simpa using hv true), Option.bind_some, run_nil]
  congr 2
  · funext x
    cases x <;> simp [tuple]
  · funext x
    cases x <;> simp [synTo, tuple]

lemma isSynOnly_synTo (address : Tuple4) (tmp : Bool → UInt8) (x : Bool) :
    (synTo address tmp x).isSynOnly :=
  (by decide : (isSyn (setSyn 0) && !isAck (setSyn 0)) = true)

lemma find?_connected {h : Host} {fd : ℤ} {v : MySocket} {tmp : UInt8}
    (hv : h.sockets.find? fd = some v) :
    (connected h fd v address tmp).sockets.find? fd = some (v.wrapConnect address tmp).1 := by
  change (h.sockets.modify fd (fun _ => (v.wrapConnect address tmp).1)).find? fd = _
  rw [OrdMap.find?_modify_self, hv, Option.map_some]

/-- A simultaneous open never succeeds, whatever the hosts, their sockets and the tuple are: once both
have called `connect`, the SYN on its way to either of them is not queued on its socket. -/
theorem simultaneous_open_never (hfd : ∀ x, ((s.host x).sockets.find? (fd x)).isSome) :
    ¬SimultaneousOpen s fd address tmp := by
  intro h
  choose v hv using fun x => Option.isSome_iff_exists.mp (hfd x)
  have hopened := h [] _ nofun (by rw [List.append_nil]; exact connects_eq_some hv)
  have hsock : (connected (s.host false) (fd false) (v false) (tuple address false)
      (tmp false)).sockets.find? (fd false) = some _ := find?_connected (hv false)
  obtain ⟨hst, hqueues⟩ := hopened.queued false (synTo address tmp false) _
    (List.mem_append_right _ (List.mem_singleton_self _)) (isSynOnly_synTo _ _ _) hsock rfl
  exact not_queues_syn (isSynOnly_synTo _ _ _) hsock hst hqueues

/-! ### Without a listening socket -/

/-- A SYN for which no socket listens makes `recvIPPacket` write through the past-the-end entry. -/
lemma recvIPPacket_none (hp : p.isSynOnly)
    (hlisten : ∀ fd v, m.find? fd = some v → v.tcb.status ≠ .listen) : recvIPPacket m p = none := by
  have hsearch : m.search (fun _ s => s.listensFor p) = none :=
    OrdMap.search_eq_none.mpr fun fd v hv => by simp [MySocket.listensFor, hlisten fd v hv]
  rw [recvIPPacket, if_pos hp, hsearch]
  exact ite_self none

/-- Nothing but the SYNs is on its way, and nothing can take them. -/
structure Stuck (s : Pair) : Prop where
  host : ∀ x, (s.host x).Quiet
  inFlight : ∀ x p, p ∈ s.inFlight x → p.isSynOnly
  listen : ∀ x fd v, (s.host x).sockets.find? fd = some v → v.tcb.status ≠ .listen

lemma Stuck.step_eq_none (h : Stuck s) {e : PairEvent} (he : Network e) : s.step e = none := by
  cases e with
  | deliver x i =>
    rw [step, Option.bind_eq_bind, Option.bind_eq_none_iff]
    intro p hp
    have hrecv : recvIPPacket (s.host x).threads.kernel.sockets p = none :=
      recvIPPacket_none (h.inFlight x p (List.mem_of_getElem? hp)) (h.listen x)
    have hnext : (s.host x).next (.threads (.receive p)) = none := by
      simp only [Host.next, Host.step, Threads.step, hrecv, Option.bind_eq_bind, Option.bind_none,
        Option.map_none]
    rw [hnext, Option.bind_eq_bind, Option.bind_none]
  | host x e =>
    cases e with
    | threads e =>
      cases e with
      | call | receive => cases he
      | receiverStep =>
        have hnone : (s.host x).threads.pipeline.receiverStep = none := by
          rw [Pipeline.receiverStep, (h.host x).receiver]
        simp only [step, Host.step, Threads.step, hnone, Option.bind_eq_bind, Option.bind_none]
      | processorStep tmp =>
        have hnone : (s.host x).threads.pipeline.processorStep = none := by
          rw [Pipeline.processorStep, (h.host x).processor]
          simp only [BlockingQueue.pop, if_pos (h.host x).unSolved, Option.bind_eq_bind,
            Option.bind_none]
        simp only [step, Host.step, Threads.step, hnone, Option.bind_eq_bind, Option.bind_none]
    | connect | close | closeStatus | closeReturn => cases he

lemma stuck_connects {v : Bool → MySocket} (hquiet : s.Quiet)
    (hlisten : ∀ x fd v, (s.host x).sockets.find? fd = some v → v.tcb.status ≠ .listen) :
    Stuck ⟨fun x => connected (s.host x) (fd x) (v x) (tuple address x) (tmp x),
      fun x => s.inFlight x ++ [synTo address tmp x]⟩ where
  host x := ⟨(hquiet.host x).receiver, (hquiet.host x).processor, (hquiet.host x).unSolved,
    (hquiet.host x).queues⟩
  inFlight x p hp := by
    dsimp only at hp
    rw [hquiet.inFlight, List.nil_append, List.mem_singleton] at hp
    exact hp ▸ isSynOnly_synTo address tmp x
  listen x := OrdMap.forall_modify (P := fun v => v.tcb.status ≠ .listen)
    (f := fun _ => ((v x).wrapConnect (tuple address x) (tmp x)).1) (hlisten x)
    (fun _ _ => (by decide : Status.synsent ≠ .listen))

/-- Between hosts without a listening socket nothing ever happens after the calls of `connect`:
neither of them returns. -/
theorem connects_stuck (hquiet : s.Quiet)
    (hlisten : ∀ x fd v, (s.host x).sockets.find? fd = some v → v.tcb.status ≠ .listen)
    (hfd : ∀ x, ((s.host x).sockets.find? (fd x)).isSome) {es : List PairEvent}
    (hes : ∀ e ∈ es, Network e) (h : run step s (connects fd address tmp ++ es) = some t) :
    es = [] ∧ ∀ x, t.inFlight x = [synTo address tmp x] := by
  choose v hv using fun x => Option.isSome_iff_exists.mp (hfd x)
  rw [run_append, connects_eq_some hv, Option.bind_some] at h
  cases es with
  | nil =>
    cases h
    refine ⟨rfl, fun x => ?_⟩
    dsimp only
    rw [hquiet.inFlight, List.nil_append]
  | cons e es =>
    obtain ⟨u, hu, -⟩ := run_cons_eq_some.mp h
    rw [(stuck_connects hquiet hlisten).step_eq_none (hes e List.mem_cons_self)] at hu
    cases hu

/-! ### Two new sockets -/

/-- Two hosts with one new socket each, on descriptor 100. -/
def twoSockets : Pair where
  host _ := { Host.init with threads := ⟨{ Kernel.init with
    sockets := OrdMap.empty.insert 100 (MySocket.create default false) },
    { Host.init.threads.pipeline with socketQueue := OrdMap.empty.insert 100 (.new 1000) }⟩ }
  inFlight _ := []

theorem simultaneous_open_never_twoSockets :
    ¬SimultaneousOpen twoSockets (fun _ => 100) ⟨1, 2, 3, 4⟩ (fun _ => 0) :=
  simultaneous_open_never fun _ => rfl

/-- Either SYN is written through the past-the-end entry. -/
theorem simultaneous_open_undefined : ∃ s,
    run step twoSockets (connects (fun _ => 100) ⟨1, 2, 3, 4⟩ (fun _ => 0)) = some s ∧
    (∀ x, (s.inFlight x).map (fun p => recvIPPacket (s.host x).sockets p) = [none]) ∧
    (∀ x, ((s.host x).sockets.find? 100).map (fun v => v.tcb.status) = some .synsent) ∧
    ¬SimultaneousOpen twoSockets (fun _ => 100) ⟨1, 2, 3, 4⟩ (fun _ => 0) := by
  have hs : run step twoSockets (connects (fun _ => 100) ⟨1, 2, 3, 4⟩ (fun _ => 0)) = some _ := rfl
  refine ⟨_, hs, fun x => ?_, fun x => ?_, fun h => ?_⟩
  · cases x <;> rfl
  · cases x <;> rfl
  · have hopened := h [] _ nofun hs
    obtain ⟨hst, hqueues⟩ := hopened.queued false _ _ (List.mem_singleton_self _) rfl rfl rfl
    exact not_queues_syn rfl rfl hst hqueues

end Pair

end ITCP
