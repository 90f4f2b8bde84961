import ITCP.Model.TCP
import ITCP.Lib.Run

/-!
# The wait loops of the socket calls

The calls `__wrap_connect`, `__wrap_accept` and `myread` wait in loops of one pattern: under a mutex
the predicate of the loop is tested, and where it fails the thread blocks on the condition variable
of the mutex. The thread that processes packets makes the predicates true and then calls
`notify_all`; it takes none of these mutexes. The calls made on one socket, by any number of
threads, run against that thread.
-/

namespace ITCP
open Lib

/-- The condition variables of a socket, each with its mutex. -/
inductive Cv
  | conn
  | accSyn
  | accAck
  | read
  deriving DecidableEq

/-- The wait loops, with the variables of the loop. -/
inductive WaitLoop
  | conn
  | accSyn
  | accAck
  | read (pastread len : ℤ)
  deriving DecidableEq

def WaitLoop.cv : WaitLoop → Cv
  | .conn => .conn
  | .accSyn => .accSyn
  | .accAck => .accAck
  | .read _ _ => .read

/-- The predicate on which the loop is left. -/
def WaitLoop.ready (l : WaitLoop) (s : MySocket) : Bool :=
  match l with
  | .conn => s.connReady
  | .accSyn => s.accSynReady
  | .accAck => s.accAckReady
  | .read pastread len => !decide (s.sizep < pastread + len)

/-- The condition variable whose waiters `readIPPacket` notifies after it has changed the socket. -/
def MySocket.notifies (s : MySocket) (p : Segment) : Option Cv :=
  if isSyn p.flag && isAck p.flag then
    if s.tcb.status = .synsent then some .conn else none
  else if isSyn p.flag && !isAck p.flag then
    if s.tcb.status = .listen then some .accSyn else none
  else if isFin p.flag then none
  else if isAck p.flag then
    if s.tcb.status = .synrcvd then some .accAck else none
  else if p.seq + UInt32.ofNat p.payload.length > u32 s.sizep then some .read
  else none

/-- Where a thread stands in a wait loop: it asks for the mutex, tests, has found the predicate
false, is blocked, asks for the mutex after it has woken up, or has found the predicate true. -/
inductive Phase
  | lock
  | test
  | block
  | wait
  | wake
  | leave
  deriving DecidableEq

inductive Caller
  | idle
  | inside (l : WaitLoop) (phase : Phase)
  deriving DecidableEq

/-- The effect of `notify_all` on a thread. -/
def Caller.notified (x : Cv) : Caller → Caller
  | .inside l .wait => .inside l (if l.cv = x then .wake else .wait)
  | c => c

structure Waiters where
  sock : MySocket
  callers : List Caller
  /-- The thread that holds the mutex of a condition variable. -/
  mutex : Cv → Option ℕ
  /-- The notification that the processing thread is about to issue. -/
  pending : Option Cv

inductive WaitersEvent
  | connect (i : ℕ) (address : Tuple4) (tmp : UInt8)
  | accept (i : ℕ)
  | read (i : ℕ) (nbyte : ℕ)
  | lock (i : ℕ)
  | test (i : ℕ)
  | block (i : ℕ)
  | wakeup (i : ℕ)
  | leave (i : ℕ)
  | process (p : Segment) (tmp : UInt8)
  | notifyAll

namespace Waiters

def setCaller (s : Waiters) (i : ℕ) (c : Caller) : Waiters := { s with callers := s.callers.set i c }

def acquire (s : Waiters) (x : Cv) (i : ℕ) : Option Waiters :=
  if s.mutex x = none then some { s with mutex := Function.update s.mutex x (some i) } else none

def release (s : Waiters) (x : Cv) : Waiters := { s with mutex := Function.update s.mutex x none }

/-- What follows a wait loop. `accept` keeps the first mutex through its second loop, and `myread`
copies the data under `data_mtx`, which the processing thread holds while it issues the
notification of the data. -/
def finish (s : Waiters) (i : ℕ) : WaitLoop → Option Waiters
  | .conn => some ((s.setCaller i .idle).release .conn)
  | .accSyn => some (s.setCaller i (.inside .accAck .lock))
  | .accAck => some (((s.setCaller i .idle).release .accAck).release .accSyn)
  | .read _ len =>
    if s.pending = some .read then none
    else do
      let (_, sock) ← s.sock.myread len
      some (({ s with sock := sock }.setCaller i .idle).release .read)

def step (s : Waiters) : WaitersEvent → Option Waiters
  | .connect i address tmp =>
    match s.callers[i]? with
    | some .idle =>
      some ({ s with sock := (s.sock.wrapConnect address tmp).1 }.setCaller i (.inside .conn .lock))
    | _ => none
  | .accept i =>
    match s.callers[i]? with
    | some .idle => some (s.setCaller i (.inside .accSyn .lock))
    | _ => none
  | .read i nbyte =>
    match s.callers[i]? with
    | some .idle =>
      let len := i32 (UInt32.ofNat nbyte)
      if fitsInt (s.sock.readp + len) then
        some (s.setCaller i (.inside (.read s.sock.readp len) .lock))
      else none
    | _ => none
  | .lock i =>
    match s.callers[i]? with
    | some (.inside l .lock) | some (.inside l .wake) =>
      (s.setCaller i (.inside l .test)).acquire l.cv i
    | _ => none
  | .test i =>
    match s.callers[i]? with
    | some (.inside l .test) =>
      some (s.setCaller i (.inside l (if l.ready s.sock then .leave else .block)))
    | _ => none
  | .block i =>
    match s.callers[i]? with
    | some (.inside l .block) => some ((s.setCaller i (.inside l .wait)).release l.cv)
    | _ => none
  | .wakeup i =>
    match s.callers[i]? with
    | some (.inside l .wait) => some (s.setCaller i (.inside l .wake))
    | _ => none
  | .leave i =>
    match s.callers[i]? with
    | some (.inside l .leave) => s.finish i l
    | _ => none
  | .process p tmp =>
    if s.pending.isSome then none
    else do
      let (sock, _) ← s.sock.readIPPacket p tmp
      some { s with sock := sock, pending := s.sock.notifies p }
  | .notifyAll => do
    let x ← s.pending
    some { s with callers := s.callers.map (Caller.notified x), pending := none }

end Waiters

end ITCP
