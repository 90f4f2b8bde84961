import ITCP.Lib.OrdMap
import ITCP.Model.BlockingQueue

/-!
# The two-stage receive pipeline

The receive thread runs `recvIPPacket`, which pushes a packet on the queue of its socket and then
the socket on `unSolvedSocket`. The processing thread runs `processIPPacket`, which pops a socket
and then, in `readIPPacket`, the packet. Each thread can be preempted between its two operations
and waits where the queue at hand is full or empty.
-/

namespace ITCP
open Lib

/-- Where the receive thread stands in `recvIPPacket`. -/
inductive ReceiverPc (P : Type)
  | idle
  | pushPacket (connfd : ℤ) (p : P)
  | pushFd (connfd : ℤ)

/-- Where the processing thread stands in `processIPPacket`. -/
inductive ProcessorPc
  | popFd
  | popPacket (fd : ℤ)

structure Pipeline (P : Type) where
  socketQueue : OrdMap ℤ (BlockingQueue P)
  unSolvedSocket : BlockingQueue ℤ
  receiver : ReceiverPc P
  processor : ProcessorPc
  /-- The packets received so far with the sockets chosen for them, in order. -/
  received : List (ℤ × P)
  /-- The packets processed so far with the sockets they were processed on, in order. -/
  processed : List (ℤ × P)

inductive PipelineEvent (P : Type)
  | receive (connfd : ℤ) (p : P)
  | receiverStep
  | processorStep
  | socketCreate (fd : ℤ) (capacity : ℕ)

namespace Pipeline

variable {P : Type} [Inhabited P]

/-- The next operation of the receive thread; `none` while it has nothing to do or waits. -/
def receiverStep (s : Pipeline P) : Option (Pipeline P) :=
  match s.receiver with
  | .idle => none
  | .pushPacket connfd p => do
    let q ← s.socketQueue.find? connfd
    let q' ← q.push p
    some { s with socketQueue := s.socketQueue.modify connfd (fun _ => q'), receiver := .pushFd connfd }
  | .pushFd connfd => do
    let q' ← s.unSolvedSocket.push connfd
    some { s with unSolvedSocket := q', receiver := .idle }

/-- The next operation of the processing thread; `none` while it waits. -/
def processorStep (s : Pipeline P) : Option (Pipeline P) :=
  match s.processor with
  | .popFd => do
    let (fd, q') ← s.unSolvedSocket.pop
    some { s with unSolvedSocket := q', processor := .popPacket fd }
  | .popPacket fd => do
    let q ← s.socketQueue.find? fd
    let (p, q') ← q.pop
    some { s with
      socketQueue := s.socketQueue.modify fd (fun _ => q')
      processor := .popFd
      processed := s.processed ++ [(fd, p)] }

/-- A packet is received for a socket that has a queue, and new sockets bring queues of at least
one place. -/
def step (s : Pipeline P) : PipelineEvent P → Option (Pipeline P)
  | .receive connfd p =>
    match s.receiver with
    | .idle =>
      if (s.socketQueue.find? connfd).isSome then
        some { s with receiver := .pushPacket connfd p, received := s.received ++ [(connfd, p)] }
      else none
    | _ => none
  | .receiverStep => s.receiverStep
  | .processorStep => s.processorStep
  | .socketCreate fd capacity =>
    if 1 ≤ capacity then some { s with socketQueue := s.socketQueue.insert fd (.new capacity) }
    else none

end Pipeline

end ITCP
