import ITCP.Model.Network

/-!
# Hosts on lines that keep the order

A network as in `Network`, in which the frames on their way to a device wait in line, and may get
lost there. What hosts were asked to send, and what they have handed to their IP callbacks, is kept
in order.
-/

namespace ITCP
open Lib

/-- A call of `sendIPPacket`. -/
structure Sending where
  src : UInt32
  dest : UInt32
  proto : UInt8
  buf : List UInt8
  ttl : ℤ
  deriving DecidableEq

structure Lines (N : Type) where
  host : N → Node
  /-- The frames on their way to a device of a host. -/
  line : N × ℕ → List (List UInt8)
  lost : List ((N × ℕ) × List UInt8)
  sent : List (N × Sending)
  taken : List (N × List UInt8)

inductive LinesEvent (N : Type)
  | deliver (i : N) (id : ℕ) (tmp : UInt8)
  | lose (i : N) (id k : ℕ)
  | sendArp (i : N) (tmp : UInt8)
  | send (i : N) (p : Sending)

/-- What the frames sent by a host add to the line of a device. -/
def onLine {N : Type} [DecidableEq N] (wire : N → ℕ → List (N × ℕ)) (i : N)
    (sent : List (ℕ × List UInt8)) (q : N × ℕ) : List (List UInt8) :=
  sent.flatMap (fun p => List.replicate ((wire i p.1).count q) p.2)

def Node.send (n : Node) (p : Sending) : Option (List (ℕ × List UInt8)) :=
  n.sendIPPacket p.src p.dest p.proto p.buf p.ttl

namespace Lines

variable {N : Type}

def start (host : N → Node) : Lines N := ⟨host, fun _ => [], [], [], []⟩

variable [DecidableEq N] (wire : N → ℕ → List (N × ℕ))

def emit (s : Lines N) (i : N) (sent : List (ℕ × List UInt8)) : Lines N :=
  { s with line := fun q => s.line q ++ onLine wire i sent q }

def step (s : Lines N) : LinesEvent N → Option (Lines N)
  | .deliver i id tmp =>
    match s.line (i, id) with
    | [] => none
    | frame :: rest => do
      let out ← (s.host i).recvFrame frame id tmp
      some (emit wire { s with
        host := Function.update s.host i out.node
        line := Function.update s.line (i, id) rest
        taken := s.taken ++ out.delivered.toList.map (fun packet => (i, packet)) } i out.sent)
  | .lose i id k => do
    let frame ← (s.line (i, id))[k]?
    some { s with
      line := Function.update s.line (i, id) ((s.line (i, id)).eraseIdx k)
      lost := s.lost ++ [((i, id), frame)] }
  | .sendArp i tmp => do
    let sent ← (s.host i).sendArp tmp
    some (emit wire s i sent)
  | .send i p => do
    let sent ← (s.host i).send p
    some (emit wire { s with sent := s.sent ++ [(i, p)] } i sent)

end Lines

end ITCP
