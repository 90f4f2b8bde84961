import ITCP.Model.Wire
import ITCP.Lib.Run

/-!
# Hosts on links

A network of hosts: `wire i d` lists the devices that hear what device `d` of host `i` sends. A
step is a call of `sendArp` at a host or the delivery of one of the frames in flight, in any order,
to `recvFrame`. A frame that is never delivered is lost.
-/

namespace ITCP
open Lib

/-- A frame on its way to a device of a host, and the call of `sendArp` it derives from. -/
structure Transit (N : Type) where
  call : ℕ
  host : N
  device : ℕ
  frame : List UInt8

/-- A frame that was sent, and the received frame that caused it, if any. -/
structure Cast where
  call : ℕ
  cause : Option (List UInt8)
  frame : List UInt8
  deriving DecidableEq

structure Network (N : Type) where
  host : N → Node
  inFlight : List (Transit N)
  sent : List Cast
  calls : ℕ

/-- The byte in each event is the payload that nobody has written. -/
inductive NetworkEvent (N : Type)
  | sendArp (i : N) (tmp : UInt8)
  | deliver (k : ℕ) (tmp : UInt8)

namespace Network

variable {N : Type}

def start (host : N → Node) : Network N := ⟨host, [], [], 0⟩

variable (wire : N → ℕ → List (N × ℕ))

/-- The frames sent by a host, each on its way to everyone who hears the device it leaves by. -/
def transits (call : ℕ) (i : N) (sent : List (ℕ × List UInt8)) : List (Transit N) :=
  sent.flatMap (fun p => (wire i p.1).map (fun e => ⟨call, e.1, e.2, p.2⟩))

variable [DecidableEq N]

/-- Who hears the device, apart from the device itself. -/
def others (i : N) (d : ℕ) : List (N × ℕ) := (wire i d).filter (fun q => decide (q ≠ (i, d)))

def step (s : Network N) : NetworkEvent N → Option (Network N)
  | .sendArp i tmp => do
    let sent ← (s.host i).sendArp tmp
    some { s with
      inFlight := s.inFlight ++ transits wire s.calls i sent
      sent := s.sent ++ sent.map (fun p => ⟨s.calls, none, p.2⟩)
      calls := s.calls + 1 }
  | .deliver k tmp => do
    let a ← s.inFlight[k]?
    let out ← (s.host a.host).recvFrame a.frame a.device tmp
    some { s with
      host := Function.update s.host a.host out.node
      inFlight := s.inFlight.eraseIdx k ++ transits wire a.call a.host out.sent
      sent := s.sent ++ out.sent.map (fun p => ⟨a.call, some a.frame, p.2⟩) }

variable {wire}

lemma step_sendArp_eq_some {s t : Network N} {i : N} {tmp : UInt8} :
    step wire s (.sendArp i tmp) = some t ↔ ∃ sent, (s.host i).sendArp tmp = some sent ∧
      { s with
        inFlight := s.inFlight ++ transits wire s.calls i sent
        sent := s.sent ++ sent.map (fun p => ⟨s.calls, none, p.2⟩)
        calls := s.calls + 1 } = t := by
  simp only [step, Option.bind_eq_bind, Option.bind_eq_some_iff, Option.some.injEq]

lemma step_deliver_eq_some {s t : Network N} {k : ℕ} {tmp : UInt8} :
    step wire s (.deliver k tmp) = some t ↔ ∃ a, s.inFlight[k]? = some a ∧
      ∃ out, (s.host a.host).recvFrame a.frame a.device tmp = some out ∧
        { s with
          host := Function.update s.host a.host out.node
          inFlight := s.inFlight.eraseIdx k ++ transits wire a.call a.host out.sent
          sent := s.sent ++ out.sent.map (fun p => ⟨a.call, some a.frame, p.2⟩) } = t := by
  simp only [step, Option.bind_eq_bind, Option.bind_eq_some_iff, Option.some.injEq]

end Network

end ITCP
