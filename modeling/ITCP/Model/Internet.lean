import ITCP.Model.Lines
import ITCP.Model.BlockingQueue

/-!
# Hosts that run the daemon

The network of `Lines`, in which a host takes frames from its lines as `daemon.cc` does: for each
device a thread captures them one by one and pushes them on one bounded queue, from which the main loop
pops them for `recvFrame`. What the IP callback does with the packets it gets is left to `Stack`.
-/

namespace ITCP
open Lib

/-- The length from which on `pcap` does not capture a frame whole. -/
def BUFSIZ : ℕ := 8192

/-- `recvPcap`, with as much of the array as `len` says. -/
structure RecvPcap where
  packet : List UInt8
  ID : ℕ
  deriving DecidableEq

instance : Inhabited RecvPcap := ⟨⟨[], 1024⟩⟩

structure Station where
  node : Node
  /-- What the thread of a device has captured and not yet pushed. -/
  capturing : ℕ → Option RecvPcap
  q : BlockingQueue RecvPcap

namespace Station

variable (s : Station)

/-- The start of `main`, with the devices that `addAll` found. -/
def main (node : Node) : Station := ⟨node, fun _ => none, .new 1024⟩

/-- `recvPcapPacket` up to its push: there is a thread for every device. -/
def recvPcapPacket (id : ℕ) (frame : List UInt8) : Option Station :=
  if id < s.node.currDevice.devices.length ∧ s.capturing id = none ∧ frame.length ≤ BUFSIZ then
    some { s with capturing := Function.update s.capturing id (some ⟨frame, id⟩) }
  else none

/-- Its push; `none` while the queue is full. -/
def pushPcap (id : ℕ) : Option Station := do
  let ret ← s.capturing id
  let q ← s.q.push ret
  some { s with capturing := Function.update s.capturing id none, q := q }

/-- A round of the main loop up to the call of the IP callback, which gets the packet that is
delivered; `none` while the queue is empty. -/
def recvFrame (tmp : UInt8) : Option (Station × Node.Outcome) := do
  let (ret, q) ← s.q.pop
  let out ← s.node.recvFrame ret.packet ret.ID tmp
  some ({ s with node := out.node, q := q }, out)

end Station

structure Internet (N : Type) where
  station : N → Station
  line : N × ℕ → List (List UInt8)
  lost : List ((N × ℕ) × List UInt8)
  sent : List (N × Sending)
  taken : List (N × List UInt8)

inductive InternetEvent (N : Type)
  | capture (i : N) (id : ℕ)
  | push (i : N) (id : ℕ)
  | recvFrame (i : N) (tmp : UInt8)
  | lose (i : N) (id k : ℕ)
  | sendArp (i : N) (tmp : UInt8)
  | send (i : N) (p : Sending)

namespace Internet

variable {N : Type}

def start (node : N → Node) : Internet N := ⟨fun i => .main (node i), fun _ => [], [], [], []⟩

variable [DecidableEq N] (wire : N → ℕ → List (N × ℕ))

def emit (s : Internet N) (i : N) (sent : List (ℕ × List UInt8)) : Internet N :=
  { s with line := fun q => s.line q ++ onLine wire i sent q }

def step (s : Internet N) : InternetEvent N → Option (Internet N)
  | .capture i id =>
    match s.line (i, id) with
    | [] => none
    | frame :: rest => do
      let station ← (s.station i).recvPcapPacket id frame
      some { s with
        station := Function.update s.station i station
        line := Function.update s.line (i, id) rest }
  | .push i id => do
    let station ← (s.station i).pushPcap id
    some { s with station := Function.update s.station i station }
  | .recvFrame i tmp => do
    let (station, out) ← (s.station i).recvFrame tmp
    some (emit wire { s with
      station := Function.update s.station i station
      taken := s.taken ++ out.delivered.toList.map (fun packet => (i, packet)) } i out.sent)
  | .lose i id k => do
    let frame ← (s.line (i, id))[k]?
    some { s with
      line := Function.update s.line (i, id) ((s.line (i, id)).eraseIdx k)
      lost := s.lost ++ [((i, id), frame)] }
  | .sendArp i tmp => do
    let sent ← (s.station i).node.sendArp tmp
    some (emit wire s i sent)
  | .send i p => do
    let sent ← (s.station i).node.send p
    some (emit wire { s with sent := s.sent ++ [(i, p)] } i sent)

end Internet

end ITCP
