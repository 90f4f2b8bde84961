import ITCP.Model.Network

/-!
# Packets on the network

The network with traffic besides the myArp calls: a host sends an IP packet of its own, or a frame
from outside arrives at a device of a host. Either is numbered like a call of `sendArp`, and every
frame that derives from it carries its number. What the hosts hand to their IP callbacks can be kept
in a record.
-/

namespace ITCP
open Lib

inductive TrafficEvent (N : Type)
  | network (e : NetworkEvent N)
  | send (i : N) (src dest : UInt32) (proto : UInt8) (buf : List UInt8) (ttl : ℤ)
  | arrive (i : N) (device : ℕ) (frame : List UInt8)

/-- The frame holds a myArp packet. -/
def isMyArp (frame : List UInt8) : Bool := (frameIP frame).any (fun ip => ip.protocol == L3_MYARP)

/-- The event brings in an IP packet other than a myArp packet, whose TTL field is `ttl`. -/
def TrafficEvent.Injects {N : Type} (ttl : UInt8) : TrafficEvent N → Prop
  | .network _ => False
  | .send _ _ _ proto _ t => proto ≠ L3_MYARP ∧ UInt8.ofInt t = ttl
  | .arrive _ _ frame => isMyArp frame = false ∧ frameTTL frame = some ttl

namespace Traffic

variable {N : Type} [DecidableEq N] (wire : N → ℕ → List (N × ℕ))

def step (s : Network N) : TrafficEvent N → Option (Network N)
  | .network e => Network.step wire s e
  | .send i src dest proto buf ttl => do
    let sent ← (s.host i).sendIPPacket src dest proto buf ttl
    some { s with
      inFlight := s.inFlight ++ Network.transits wire s.calls i sent
      sent := s.sent ++ sent.map (fun p => ⟨s.calls, none, p.2⟩)
      calls := s.calls + 1 }
  | .arrive i device frame =>
    some { s with inFlight := s.inFlight ++ [⟨s.calls, i, device, frame⟩], calls := s.calls + 1 }

end Traffic

/-- A packet handed to the IP callback of a host. -/
structure Taken (N : Type) where
  call : ℕ
  host : N
  packet : List UInt8

structure Delivery (N : Type) where
  network : Network N
  taken : List (Taken N)

namespace Delivery

variable {N : Type}

/-- What the event hands to the IP callback of a host. -/
def handsOver (s : Network N) : TrafficEvent N → List (Taken N)
  | .network (.deliver k tmp) => (do
      let a ← s.inFlight[k]?
      let out ← (s.host a.host).recvFrame a.frame a.device tmp
      let packet ← out.delivered
      some (⟨a.call, a.host, packet⟩ : Taken N)).toList
  | _ => []

def step [DecidableEq N] (wire : N → ℕ → List (N × ℕ)) (s : Delivery N) (e : TrafficEvent N) :
    Option (Delivery N) := do
  let t ← Traffic.step wire s.network e
  some ⟨t, s.taken ++ handsOver s.network e⟩

end Delivery

end ITCP
