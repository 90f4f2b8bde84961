import ITCP.Model.Host

/-!
# Two hosts

Two hosts joined by a network that loses nothing and delivers in any order: what one of them sends
is on its way to the other one until it is handed to `recvIPPacket` there.
-/

namespace ITCP
open Lib

structure Pair where
  host : Bool → Host
  /-- The packets on their way to a host. -/
  inFlight : Bool → List Segment

inductive PairEvent
  | host (x : Bool) (e : HostEvent)
  | deliver (x : Bool) (i : ℕ)

/-- Nothing is being received or processed, and all queues are empty. -/
structure Host.Quiet (h : Host) : Prop where
  receiver : h.threads.pipeline.receiver = .idle
  processor : h.threads.pipeline.processor = .popFd
  unSolved : h.threads.pipeline.unSolvedSocket.isempty
  queues : ∀ fd q, h.socketQueue.find? fd = some q → q.isempty

namespace Pair

/-- Packets are received from the network only. -/
def step (s : Pair) : PairEvent → Option Pair
  | .host _ (.threads (.receive _)) => none
  | .host x e => do
    let (h, out) ← (s.host x).step e
    some ⟨Function.update s.host x h, Function.update s.inFlight (!x) (s.inFlight (!x) ++ out)⟩
  | .deliver x i => do
    let p ← (s.inFlight x)[i]?
    let h ← (s.host x).next (.threads (.receive p))
    some ⟨Function.update s.host x h, Function.update s.inFlight x ((s.inFlight x).eraseIdx i)⟩

structure Quiet (s : Pair) : Prop where
  host : ∀ x, (s.host x).Quiet
  inFlight : ∀ x, s.inFlight x = []

/-- The delivery of a packet, or a step of the threads that pass it on and process it. -/
def Network : PairEvent → Prop
  | .deliver _ _ => True
  | .host _ (.threads .receiverStep) | .host _ (.threads (.processorStep _)) => True
  | .host _ _ => False

/-- Both hosts call `connect`, with mirrored tuples. -/
def connects (fd : Bool → ℤ) (address : Tuple4) (tmp : Bool → UInt8) : List PairEvent :=
  [.host false (.connect (fd false) address (tmp false)),
    .host true (.connect (fd true) address.mirror (tmp true))]

end Pair

end ITCP
