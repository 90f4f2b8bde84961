import ITCP.Model.Internet
import ITCP.Model.Streams

/-!
# The whole stack

Hosts that run the daemon together with programs that use sockets. The main loop calls
`recvIPPacket` for a packet that is for the host, and takes no other frame before the two pushes of
that call are done. What the sockets send goes out through `sendTCPPacket`, in the step in which it is sent.
-/

namespace ITCP
open Lib

/-- The sockets of a host and the calls on them. -/
structure Machine where
  streams : Streams
  /-- The descriptors of the writes in the loop behind the section that sends. -/
  spins : List ℤ
  /-- The bytes that have been given to writes, with their descriptors. -/
  written : List (ℤ × List UInt8)

inductive MachineEvent
  | streams (e : StreamsEvent)
  | writeReturn (k : ℕ)

namespace Machine

variable (m : Machine)

def init : Machine := ⟨.init, [], []⟩

/-- The descriptor of a write that gets to its loop. -/
def spinning : StreamsEvent → List ℤ
  | .writeSend i => (m.streams.writes[i]?).toList
  | _ => []

def writing : StreamsEvent → List (ℤ × List UInt8)
  | .write fildes buf => [(fildes, buf)]
  | _ => []

/-- A step, with the packets it sends. Packets are received by `ipCallback` only. -/
def step : MachineEvent → Option (Machine × List Segment)
  | .streams (.host (.threads (.receive _))) => none
  | .streams e => do
    let (streams, out) ← m.streams.step e
    some (⟨streams, m.spins ++ m.spinning e, m.written ++ writing e⟩, out)
  | .writeReturn k => do
    let fildes ← m.spins[k]?
    let s ← m.streams.sockets.find? fildes
    if s.writep = s.sizep then some ({ m with spins := m.spins.eraseIdx k }, []) else none

/-- The IP callback of `recvFrame`, which is `recvIPPacket`, up to its first push. `none` while the
last call has not returned, and where the call is undefined. -/
def ipCallback (delivered : Option (List UInt8)) : Option Machine :=
  match m.streams.host.threads.pipeline.receiver, delivered with
  | .idle, none => some m
  | .idle, some packet => do
    let p ← Segment.decode packet
    let (streams, _) ← m.streams.step (.host (.threads (.receive p)))
    some { m with streams := streams }
  | _, _ => none

end Machine

/-- `sendTCPPacket` as a call of `sendIPPacket`. -/
def Segment.sending (p : Segment) (size : UInt16) (other : UInt32) : Sending :=
  ⟨p.info.srcIP, p.info.dstIP, L4_TCP, p.encode size other, 10⟩

/-- The packets of a step, with the bytes of their headers that nobody has written. -/
def sends {N : Type} (i : N) (out : List Segment) (unwritten : ℕ → UInt16 × UInt32) :
    List (InternetEvent N) :=
  out.mapIdx (fun k p => .send i (p.sending (unwritten k).1 (unwritten k).2))

structure Stack (N : Type) where
  net : Internet N
  machine : N → Machine

inductive StackEvent (N : Type)
  | net (e : InternetEvent N)
  | machine (i : N) (e : MachineEvent) (unwritten : ℕ → UInt16 × UInt32)

namespace Stack

variable {N : Type}

def start (node : N → Node) : Stack N := ⟨.start node, fun _ => .init⟩

variable [DecidableEq N] (wire : N → ℕ → List (N × ℕ))

/-- Only `sendTCPPacket` and the myArp functions send packets. -/
def step (s : Stack N) : StackEvent N → Option (Stack N)
  | .net (.send _ _) => none
  | .net (.recvFrame i tmp) => do
    let (_, out) ← (s.net.station i).recvFrame tmp
    let net ← s.net.step wire (.recvFrame i tmp)
    let m ← (s.machine i).ipCallback out.delivered
    some ⟨net, Function.update s.machine i m⟩
  | .net e => do
    let net ← s.net.step wire e
    some { s with net := net }
  | .machine i e unwritten => do
    let (m, out) ← (s.machine i).step e
    let net ← run (Internet.step wire) s.net (sends i out unwritten)
    some ⟨net, Function.update s.machine i m⟩

end Stack

end ITCP
