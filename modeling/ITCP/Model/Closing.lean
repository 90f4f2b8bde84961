import ITCP.Model.Connection
import ITCP.Model.Host

/-!
# Closing a connection

The two ends of a connection with their calls of `__wrap_close`. The call of a client sends a FIN and
then writes FINWAIT1, and packets may be processed in between; the call of a server only waits.
-/

namespace ITCP
open Lib

def LocalEvent.isWrite : LocalEvent → Bool
  | .mywrite _ => true
  | _ => false

structure Closing where
  conn : Connection
  /-- Where the call of `__wrap_close` stands, at an end that has made it. -/
  close : Side → Option ClosePc

inductive ClosingEvent
  | conn (x : Side) (e : LocalEvent)
  | close (x : Side) (tmp : UInt8)
  | closeStatus (x : Side)
  | closeReturn (x : Side)

namespace Closing

/-- A step. An end makes its calls one after the other: `close` once its writes have returned, and
no write after it. -/
def step (s : Closing) : ClosingEvent → Option Closing
  | .conn x e =>
    if e.isWrite && (s.close x).isSome then none else do
      let conn ← s.conn.step (x, e)
      some { s with conn := conn }
  | .close x tmp =>
    if (s.close x).isSome || (s.conn x).pc != .idle then none
    else if (s.conn x).sock.tcb.role = .server then
      some { s with close := Function.update s.close x (some (.spin .closed)) }
    else
      let fin := (s.conn x).sock.wrapCloseFin tmp
      some {
        conn := Function.update
          (Function.update s.conn x { s.conn x with sent := (s.conn x).sent ++ [fin] })
          x.other ((s.conn x.other).receive [fin])
        close := Function.update s.close x (some .finSent) }
  | .closeStatus x =>
    if s.close x = some .finSent then
      some {
        conn := Function.update s.conn x
          { s.conn x with sock := (s.conn x).sock.setStatus .finwait1 }
        close := Function.update s.close x (some (.spin .timewait)) }
    else none
  | .closeReturn x =>
    if s.close x = some (.spin (s.conn x).sock.tcb.status) then
      some { s with close := Function.update s.close x (some .returned) }
    else none

/-- Only the client writes, and the network loses nothing and delivers in order. -/
def Allowed : ClosingEvent → Prop
  | .conn x (.mywrite _) => x = .client
  | .conn x e => Connection.Fifo (x, e)
  | _ => True

/-- A new connection between a client and a server, which have not called `close`. -/
structure Established (s : Closing) : Prop where
  fresh : s.conn.Fresh
  client : (s.conn .client).sock.tcb.role = .client
  server : (s.conn .server).sock.tcb.role = .server
  close : ∀ x, s.close x = none

/-- Once the client has called `close`, there is no state in which nothing is left to do and one of
the two calls still waits. -/
def Orderly (s : Closing) : Prop :=
  (s.close .client).isSome → s.conn.Quiet →
    (s.close .client = some (.spin .timewait) → (s.conn .client).sock.tcb.status = .timewait) ∧
    (s.close .server = some (.spin .closed) → (s.conn .server).sock.tcb.status = .closed)

end Closing

end ITCP
