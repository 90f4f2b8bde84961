import ITCP.Model.Kernel
import ITCP.Model.Pipeline

/-!
# Two threads and their queues

The kernel with the queues that its two threads use: `recvIPPacket` chooses the socket of a packet
when it arrives, and the packet then passes through the pipeline to `readIPPacket`.
-/

namespace ITCP
open Lib

/-- The kernel and the queues of its sockets; the list `pending` of the kernel is not used. -/
structure Threads where
  kernel : Kernel
  pipeline : Pipeline Segment

inductive ThreadsEvent
  | call (e : KernelEvent)
  | receive (p : Segment)
  | receiverStep
  | processorStep (tmp : UInt8)

namespace Threads

/-- The pipeline with a queue for the first free descriptor; an existing queue is kept. -/
def addQueue (s : Threads) (capacity : ℕ) : Pipeline Segment :=
  { s.pipeline with
    socketQueue := s.pipeline.socketQueue.insert (freeFd s.kernel.sockets) (.new capacity) }

/-- A call that creates a socket creates the queue of the socket. -/
def createQueue (s : Threads) : KernelEvent → Pipeline Segment
  | .socket _ _ => if freeFd s.kernel.sockets = 200 then s.pipeline else s.addQueue 1000
  | .accept _ => s.addQueue 2000
  | _ => s.pipeline

/-- `readIPPacket` with the pop of its packet; the queue is popped by `processorStep`. -/
def readIPPacket (s : Threads) (fd : ℤ) (tmp : UInt8) : Option Kernel := do
  let q ← s.pipeline.socketQueue.find? fd
  let (p, _) ← q.pop
  let sock ← s.kernel.sockets.find? fd
  let (t, out) ← sock.readIPPacket p tmp
  some { s.kernel with
    sockets := s.kernel.sockets.modify fd (fun _ => t)
    log := s.kernel.log ++ [⟨fd, p, sock.tcb.status, t.tcb.status, out⟩] }

def step (s : Threads) : ThreadsEvent → Option Threads
  | .call (.recv _) | .call (.process _) => none
  | .call e => do
    let kernel ← s.kernel.step e
    some ⟨kernel, s.createQueue e⟩
  | .receive p => do
    let (fd, sockets) ← recvIPPacket s.kernel.sockets p
    let pipeline ← s.pipeline.step (.receive fd p)
    some ⟨{ s.kernel with sockets := sockets }, pipeline⟩
  | .receiverStep => do
    let pipeline ← s.pipeline.receiverStep
    some { s with pipeline := pipeline }
  | .processorStep tmp => do
    let pipeline ← s.pipeline.processorStep
    match s.pipeline.processor with
    | .popFd => some { s with pipeline := pipeline }
    | .popPacket fd => do
      let kernel ← s.readIPPacket fd tmp
      some ⟨kernel, pipeline⟩

end Threads

/-! ### `recvIPPacket` as one call -/

/-- What `recvIPPacket` works on. -/
structure Tables where
  sockets : SocketSet
  socketQueue : OrdMap ℤ (BlockingQueue Segment)
  unSolvedSocket : BlockingQueue ℤ

/-- What comes of a call: it uses the past-the-end entry of a map, it waits for a place in a queue,
or it returns. -/
inductive Received
  | undefined
  | waits (connfd : ℤ)
  | returned (connfd : ℤ) (t : Tables)

def Tables.recv (t : Tables) (p : Segment) : Received :=
  match recvIPPacket t.sockets p with
  | none => .undefined
  | some (connfd, sockets) =>
    match t.socketQueue.find? connfd with
    | none => .undefined
    | some q =>
      match q.push p, t.unSolvedSocket.push connfd with
      | some q', some unSolvedSocket =>
        .returned connfd ⟨sockets, t.socketQueue.modify connfd (fun _ => q'), unSolvedSocket⟩
      | _, _ => .waits connfd

def Threads.tables (s : Threads) : Tables where
  sockets := s.kernel.sockets
  socketQueue := s.pipeline.socketQueue
  unSolvedSocket := s.pipeline.unSolvedSocket

end ITCP
