import ITCP.Model.Host

/-!
# The calls that open and close a connection

`socket_bind`, `socket_listen`, `__wrap_connect` and `__wrap_close` on a socket table, with what they
return. A call is undefined where it uses the past-the-end entry of the table.
-/

namespace ITCP
open Lib

/-- `mysocket_t::listen`. -/
def MySocket.listen (s : MySocket) : MySocket × ℤ :=
  if s.role ≠ .server then (s, -1)
  else if s.tcb.status ≠ .closed then (s, -1)
  else (s.setStatus .listen, 0)

/-- What a call has done when it returns or enters its wait loop; `ret` is `none` while it waits. -/
structure CallResult where
  ret : Option ℤ
  sockets : SocketSet
  sent : List Segment

def bindOK (_address : Tuple4) : Bool := true

namespace SocketSet

def socketBind (sockets : SocketSet) (sfd : ℤ) (address : Tuple4) : Option CallResult :=
  if !bindOK address then some ⟨some (-1), sockets, []⟩
  else
    match sockets.find? sfd with
    | none => some ⟨some (-1), sockets, []⟩
    | some s => some ⟨some 0, sockets.modify sfd (fun _ => (s.bind address).1), []⟩

def socketListen (sockets : SocketSet) (bfd : ℤ) : Option CallResult := do
  let s ← sockets.find? bfd
  some ⟨some 0, sockets.modify bfd (fun _ => s.setStatus .listen), []⟩

/-- `__wrap_connect`: it returns at once if the socket has been connected before. -/
def wrapConnect (sockets : SocketSet) (socket : ℤ) (address : Tuple4) (tmp : UInt8) :
    Option CallResult := do
  let s ← sockets.find? socket
  let (t, syn) := s.wrapConnect address tmp
  some ⟨if t.connReady then some 0 else none, sockets.modify socket (fun _ => t), [syn]⟩

/-- `__wrap_close`: a server only waits, and a client sends its FIN before it waits. -/
def wrapClose (sockets : SocketSet) (fildes : ℤ) (tmp : UInt8) : Option CallResult := do
  let s ← sockets.find? fildes
  if s.tcb.role = .server then
    some ⟨if s.tcb.status = .closed then some 0 else none, sockets, []⟩
  else
    some ⟨none, sockets.modify fildes (fun _ => s.setStatus .finwait1), [s.wrapCloseFin tmp]⟩

end SocketSet

inductive Call
  | bind (sfd : ℤ) (address : Tuple4)
  | listen (bfd : ℤ)
  | connect (socket : ℤ) (address : Tuple4) (tmp : UInt8)
  | close (fildes : ℤ) (tmp : UInt8)

namespace Call

def fd : Call → ℤ
  | .bind fd _ | .listen fd | .connect fd _ _ | .close fd _ => fd

def result (sockets : SocketSet) : Call → Option CallResult
  | .bind fd address => sockets.socketBind fd address
  | .listen fd => sockets.socketListen fd
  | .connect fd address tmp => sockets.wrapConnect fd address tmp
  | .close fd tmp => sockets.wrapClose fd tmp

/-- The sockets on which a call makes sense: `bind` only once, `listen` on a bound server that is
closed, `connect` where no connection has been opened, and `close` on a server, which sends nothing,
or on an end that is connected. -/
def Permits (s : MySocket) : Call → Prop
  | .bind _ _ => s.role = .unset
  | .listen _ => s.role = .server ∧ s.tcb.status = .closed
  | .connect _ _ _ => s.tcb.status = .unset ∨ s.tcb.status = .closed
  | .close _ _ => s.tcb.role = .server ∨ s.tcb.status = .estab

/-- There is a socket, and the call makes sense on it. -/
def Permitted (sockets : SocketSet) (c : Call) : Prop :=
  ∃ s, sockets.find? c.fd = some s ∧ c.Permits s

/-- The call returns `-1` and does nothing. -/
def Fails (sockets : SocketSet) (c : Call) : Prop :=
  c.result sockets = some ⟨some (-1), sockets, []⟩

/-- `socket_listen` does what `mysocket_t::listen` does. -/
def ListensAlike (sockets : SocketSet) (bfd : ℤ) (s : MySocket) : Prop :=
  sockets.socketListen bfd = some ⟨some s.listen.2, sockets.modify bfd (fun _ => s.listen.1), []⟩

/-- A call fails where it makes no sense, and the two implementations of `listen` agree. -/
structure Guarded (sockets : SocketSet) (c : Call) : Prop where
  fails : ¬c.Permitted sockets → c.Fails sockets
  listens : ∀ bfd s, c = .listen bfd → sockets.find? bfd = some s → ListensAlike sockets bfd s

end Call

end ITCP
