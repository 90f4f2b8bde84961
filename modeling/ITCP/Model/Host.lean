import ITCP.Model.Threads

/-!
# A host

The kernel and its threads with the calls that open and close connections from the side of a
client. `__wrap_connect` and `__wrap_close` write to the record of their socket without any lock and
then wait in a loop. A socket that has been closed stays in the table.
-/

namespace ITCP
open Lib

/-- Where a call of `__wrap_close` stands: between its FIN and the write of the status, in the loop
that waits for a status, or behind it. -/
inductive ClosePc
  | finSent
  | spin (status : Status)
  | returned
  deriving DecidableEq

structure CloseCall where
  fildes : ℤ
  pc : ClosePc
  deriving DecidableEq

structure Host where
  threads : Threads
  closes : List CloseCall

inductive HostEvent
  | threads (e : ThreadsEvent)
  | connect (fd : ℤ) (address : Tuple4) (tmp : UInt8)
  | close (fildes : ℤ) (tmp : UInt8)
  | closeStatus (i : ℕ)
  | closeReturn (i : ℕ)

namespace Host

/-- No sockets and no packets; `unSolvedSocket` has the default capacity. -/
def init : Host where
  threads := ⟨.init, ⟨.empty, .new 2000, .idle, .popFd, [], []⟩⟩
  closes := []

def sockets (h : Host) : SocketSet := h.threads.kernel.sockets

def socketQueue (h : Host) : OrdMap ℤ (BlockingQueue Segment) := h.threads.pipeline.socketQueue

def setSockets (h : Host) (sockets : SocketSet) : Host :=
  { h with threads := { h.threads with kernel := { h.threads.kernel with sockets := sockets } } }

/-- The packets sent by the processing thread in a step. -/
def replies (s t : Threads) : List Segment :=
  (t.kernel.log.drop s.kernel.log.length).flatMap Handled.out

/-- A step, with the packets it sends. The loop of `connect` changes nothing and is left out. -/
def step (h : Host) : HostEvent → Option (Host × List Segment)
  | .threads e => do
    let threads ← h.threads.step e
    some ({ h with threads := threads }, replies h.threads threads)
  | .connect fd address tmp => do
    let s ← h.sockets.find? fd
    let (t, syn) := s.wrapConnect address tmp
    some (h.setSockets (h.sockets.modify fd (fun _ => t)), [syn])
  | .close fildes tmp => do
    let s ← h.sockets.find? fildes
    if s.tcb.role = .server then
      some ({ h with closes := h.closes ++ [⟨fildes, .spin .closed⟩] }, [])
    else some ({ h with closes := h.closes ++ [⟨fildes, .finSent⟩] }, [s.wrapCloseFin tmp])
  | .closeStatus i => do
    let call ← h.closes[i]?
    if call.pc = .finSent then
      some ({ h.setSockets (h.sockets.modify call.fildes (·.setStatus .finwait1)) with
        closes := h.closes.set i { call with pc := .spin .timewait } }, [])
    else none
  | .closeReturn i => do
    let call ← h.closes[i]?
    let s ← h.sockets.find? call.fildes
    if call.pc = .spin s.tcb.status then
      some ({ h with closes := h.closes.set i { call with pc := .returned } }, [])
    else none

def next (h : Host) (e : HostEvent) : Option Host := (h.step e).map Prod.fst

end Host

end ITCP
