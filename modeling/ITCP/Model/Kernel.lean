import ITCP.Model.TCP
import ITCP.Lib.OrdMap
import ITCP.Lib.Run

/-!
# The socket table

`iTCP_kernel_t` with its sockets, the calls that create and change them, and the two halves of
packet reception: `recvIPPacket` chooses a socket for a packet, and `readIPPacket` processes the
packet on it. The packets between the two are one list in order of arrival, which is what the
queues of the receive pipeline amount to.
-/

namespace ITCP
open Lib

def Segment.isSynOnly (p : Segment) : Bool := isSyn p.flag && !isAck p.flag

/-- The test of `recvIPPacket` for the socket of a SYN. -/
def MySocket.listensFor (s : MySocket) (p : Segment) : Bool :=
  s.tcb.status == .listen && s.address.srcIP == p.info.dstIP && s.address.srcPort == p.info.dstPort

def MySocket.setAddress (s : MySocket) (address : Tuple4) : MySocket := { s with address := address }

@[simp] lemma MySocket.setAddress_address (s : MySocket) (a : Tuple4) :
    (s.setAddress a).address = a := rfl
@[simp] lemma MySocket.setAddress_tcb (s : MySocket) (a : Tuple4) : (s.setAddress a).tcb = s.tcb := rfl

abbrev SocketSet := OrdMap ℤ MySocket

/-- `recvIPPacket`: the socket chosen for a packet, and the sockets after the address of a
listening one has been overwritten. Undefined where the past-the-end entry of the map is used, and
where the packet is longer than the buffer that it is copied into. A packet whose tuple no socket
stores goes to descriptor 100. -/
def recvIPPacket (sockets : SocketSet) (p : Segment) : Option (ℤ × SocketSet) :=
  if ¬p.Fits then none
  else if p.isSynOnly then do
    let (connfd, _) ← sockets.search (fun _ s => s.listensFor p)
    some (connfd, sockets.modify connfd (·.setAddress p.info.mirror))
  else
    let connfd := match sockets.search (fun _ s => s.address == p.info.mirror) with
      | some (fd, _) => fd
      | none => 100
    if (sockets.find? connfd).isSome then some (connfd, sockets) else none

/-- The first descriptor from 100 to 199 that is not in use; 200 when there is none. -/
def freeFd (sockets : SocketSet) : ℤ :=
  (((List.range 100).map (fun i : ℕ => (100 + i : ℤ))).find?
    (fun fd => (sockets.find? fd).isNone)).getD 200

structure AcceptCall where
  socket : ℤ
  connfd : ℤ
  returned : Bool
  deriving DecidableEq

/-- A packet processed on a socket, with the status before and after, and the replies. -/
structure Handled where
  fd : ℤ
  packet : Segment
  before : Status
  after : Status
  out : List Segment
  deriving DecidableEq

structure Kernel where
  sockets : SocketSet
  /-- The packets received and not yet processed, with the sockets chosen for them. -/
  pending : List (ℤ × Segment)
  calls : List AcceptCall
  log : List Handled

inductive KernelEvent
  /-- The address and the flag are what the constructor leaves unset. -/
  | socket (address : Tuple4) (accAckReady : Bool)
  | bind (fd : ℤ) (address : Tuple4)
  | listen (fd : ℤ) (backlog : ℤ)
  | accept (fd : ℤ)
  | acceptReturn (i : ℕ)
  | recv (p : Segment)
  | process (tmp : UInt8)

namespace Kernel

def init : Kernel := ⟨.empty, [], [], []⟩

/-- `socket_create`; the queue of the socket is created with it. -/
def socketCreate (k : Kernel) (address : Tuple4) (accAckReady : Bool) : Kernel :=
  let i := freeFd k.sockets
  if i = 200 then k
  else { k with sockets := k.sockets.insert i (.create address accAckReady) }

def socketBind (k : Kernel) (fd : ℤ) (address : Tuple4) : Kernel :=
  { k with sockets := k.sockets.modify fd (fun s => (s.bind address).1) }

def socketListen (k : Kernel) (fd : ℤ) (backlog : ℤ) : Option Kernel :=
  if backlog ≠ 1 then some k
  else if (k.sockets.find? fd).isSome then
    some { k with sockets := k.sockets.modify fd (·.setStatus .listen) }
  else none

/-- `__wrap_accept` up to its first wait: the connection socket is a copy of `socket`. When all
descriptors are in use the copy is not stored, and socket 200 is used instead. -/
def accept (k : Kernel) (socket : ℤ) : Option Kernel := do
  let s ← k.sockets.find? socket
  let connfd := freeFd k.sockets
  let sockets := k.sockets.insert connfd s
  let sockets := sockets.modify socket (·.setStatus .closed)
  let sockets := sockets.modify connfd (·.setStatus .listen)
  some { k with sockets := sockets, calls := k.calls ++ [⟨socket, connfd, false⟩] }

/-- `__wrap_accept` from the end of its second wait on. -/
def acceptReturn (k : Kernel) (i : ℕ) : Option Kernel := do
  let call ← k.calls[i]?
  let s ← k.sockets.find? call.connfd
  if !call.returned && s.accSynReady && s.accAckReady then
    some { k with
      sockets := k.sockets.modify call.socket (·.setStatus .listen)
      calls := k.calls.set i { call with returned := true } }
  else none

def recv (k : Kernel) (p : Segment) : Option Kernel := do
  let (fd, sockets) ← recvIPPacket k.sockets p
  some { k with sockets := sockets, pending := k.pending ++ [(fd, p)] }

/-- The processing thread: `readIPPacket` on the next packet. -/
def process (k : Kernel) (tmp : UInt8) : Option Kernel :=
  match k.pending with
  | [] => none
  | (fd, p) :: pending => do
    let s ← k.sockets.find? fd
    let (t, out) ← s.readIPPacket p tmp
    some { k with
      sockets := k.sockets.modify fd (fun _ => t)
      pending := pending
      log := k.log ++ [⟨fd, p, s.tcb.status, t.tcb.status, out⟩] }

def step (k : Kernel) : KernelEvent → Option Kernel
  | .socket address accAckReady => some (k.socketCreate address accAckReady)
  | .bind fd address => some (k.socketBind fd address)
  | .listen fd backlog => k.socketListen fd backlog
  | .accept fd => k.accept fd
  | .acceptReturn i => k.acceptReturn i
  | .recv p => k.recv p
  | .process tmp => k.process tmp

def queue (k : Kernel) (fd : ℤ) : List Segment :=
  (k.pending.filter (fun a => a.1 = fd)).map Prod.snd

end Kernel

end ITCP
