import ITCP.Model.Host

/-!
# Reading and writing on a host

A host with its calls of `__wrap_read` and `__wrap_write`, any number of which may run on one socket.
`myread` takes `readp` before it waits, and takes it once more when it copies. A write releases
`data_mtx` between `mywrite` and the section that sends; the loop behind that changes nothing and is
left out.
-/

namespace ITCP
open Lib

/-- A call of `myread` that has not returned: `pastread` is what `readp` was when it began. -/
structure ReadCall where
  fildes : ℤ
  pastread : ℤ
  len : ℤ
  deriving DecidableEq

structure Streams where
  host : Host
  reads : List ReadCall
  /-- The bytes that reads have returned, with their descriptors. -/
  returned : List (ℤ × List UInt8)
  /-- The descriptors of the writes that have not got to the section that sends. -/
  writes : List ℤ

inductive StreamsEvent
  | host (e : HostEvent)
  | read (fildes : ℤ) (nbyte : ℕ)
  | readReturn (i : ℕ)
  | write (fildes : ℤ) (buf : List UInt8)
  | writeSend (i : ℕ)

namespace Streams

def init : Streams := ⟨.init, [], [], []⟩

def sockets (v : Streams) : SocketSet := v.host.sockets

def setSocket (v : Streams) (fd : ℤ) (s : MySocket) : Streams :=
  { v with host := v.host.setSockets (v.sockets.modify fd (fun _ => s)) }


/-- A step, with the packets it sends. -/
def step (v : Streams) : StreamsEvent → Option (Streams × List Segment)
  | .host e => do
    let (host, out) ← v.host.step e
    some ({ v with host := host }, out)
  | .read fildes nbyte => do
    let s ← v.sockets.find? fildes
    some ({ v with reads := v.reads ++ [⟨fildes, s.readp, i32 (UInt32.ofNat nbyte)⟩] }, [])
  | .readReturn i => do
    let r ← v.reads[i]?
    let s ← v.sockets.find? r.fildes
    if fitsInt (r.pastread + r.len) ∧ ¬s.sizep < r.pastread + r.len then do
      let (buf, t) ← s.myread r.len
      some ({ v.setSocket r.fildes t with
        reads := v.reads.eraseIdx i
        returned := v.returned ++ [(r.fildes, buf)] }, [])
    else none
  | .write fildes buf => do
    let s ← v.sockets.find? fildes
    let t ← s.mywrite buf
    some ({ v.setSocket fildes t with writes := v.writes ++ [fildes] }, [])
  | .writeSend i => do
    let fildes ← v.writes[i]?
    let s ← v.sockets.find? fildes
    let (t, out) ← s.wrapWriteSend
    some ({ v.setSocket fildes t with writes := v.writes.eraseIdx i }, out)

def next (v : Streams) (e : StreamsEvent) : Option Streams := (v.step e).map Prod.fst

end Streams

end ITCP
