import ITCP.Model.TCP
import ITCP.Lib.Run

/-!
# The two ends of a connection

A system of two sockets that exchange packets. Each end runs the calls of one writing and one
reading thread and the thread that processes packets; a step is one locked section of one of them.
The inbox of an end holds the packets on their way to it and those queued on its socket.
-/

namespace ITCP
open Lib

/-- Where a thread stands in `__wrap_write`: outside of it, between `mywrite` and the send step,
or in the busy-wait. -/
inductive WritePc
  | idle
  | wrote
  | spin
  deriving DecidableEq

inductive Side
  | client
  | server
  deriving DecidableEq

def Side.other : Side → Side
  | .client => .server
  | .server => .client

@[simp] lemma Side.other_other (x : Side) : x.other.other = x := by cases x <;> rfl
@[simp] lemma Side.other_ne (x : Side) : x.other ≠ x := by cases x <;> simp [Side.other]
@[simp] lemma Side.ne_other (x : Side) : x ≠ x.other := x.other_ne.symm

lemma Side.eq_other_of_ne {x w : Side} (h : x ≠ w) : x = w.other := by
  cases x <;> cases w <;> simp_all [Side.other]

structure Endpoint where
  sock : MySocket
  inbox : List Segment
  pc : WritePc
  /-- All bytes given to completed calls of `mywrite`, and all bytes returned by reads. -/
  written : List UInt8
  returned : List UInt8
  /-- The packets sent, and the packets processed. -/
  sent : List Segment
  arrived : List Segment

inductive LocalEvent
  | mywrite (buf : List UInt8)
  | send
  | writeReturn
  | read (nbyte : ℕ)
  | process (i : ℕ) (tmp : UInt8)
  | drop (i : ℕ)
  | duplicate (i : ℕ)
  deriving DecidableEq

namespace Endpoint

/-- `__wrap_read`: the `size_t` argument becomes an `int`. -/
def wrapRead (s : MySocket) (nbyte : ℕ) : Option (List UInt8 × MySocket) :=
  let len := i32 (UInt32.ofNat nbyte)
  if fitsInt (s.readp + len) ∧ s.readReady len then s.myread len else none

/-- A packet reaches the socket that stores its tuple. Another packet is not for this socket. -/
def deliver (s : MySocket) (p : Segment) (tmp : UInt8) : Option (MySocket × List Segment) :=
  if s.address = p.info.mirror then s.readIPPacket p tmp else some (s, [])

/-- A step of one end, with the packets it sends. -/
def step (s : Endpoint) : LocalEvent → Option (Endpoint × List Segment)
  | .mywrite buf => do
    if s.pc ≠ .idle then none
    let sock ← s.sock.mywrite buf
    some ({ s with sock := sock, pc := .wrote, written := s.written ++ buf }, [])
  | .send => do
    if s.pc ≠ .wrote then none
    let (sock, out) ← s.sock.wrapWriteSend
    some ({ s with sock := sock, pc := .spin, sent := s.sent ++ out }, out)
  | .writeReturn =>
    if s.pc = .spin ∧ s.sock.writep = s.sock.sizep then some ({ s with pc := .idle }, []) else none
  | .read nbyte => do
    let (buf, sock) ← wrapRead s.sock nbyte
    some ({ s with sock := sock, returned := s.returned ++ buf }, [])
  | .process i tmp => do
    let p ← s.inbox[i]?
    let (sock, out) ← deliver s.sock p tmp
    some ({ s with
      sock := sock
      inbox := s.inbox.eraseIdx i
      sent := s.sent ++ out
      arrived := s.arrived ++ [p] }, out)
  | .drop i => if i < s.inbox.length then some ({ s with inbox := s.inbox.eraseIdx i }, []) else none
  | .duplicate i => do
    let p ← s.inbox[i]?
    some ({ s with inbox := s.inbox ++ [p] }, [])

/-- Packets from the other end get on their way. -/
def receive (s : Endpoint) (out : List Segment) : Endpoint := { s with inbox := s.inbox ++ out }

@[simp] lemma receive_nil (s : Endpoint) : s.receive [] = s := by simp [receive]

end Endpoint

abbrev Connection := Side → Endpoint

abbrev ConnEvent := Side × LocalEvent

namespace Connection

def step (c : Connection) (e : ConnEvent) : Option Connection := do
  let (s, out) ← (c e.1).step e.2
  some (Function.update (Function.update c e.1 s) e.1.other ((c e.1.other).receive out))

lemma step_eq_some {c d : Connection} {x : Side} {e : LocalEvent} :
    c.step (x, e) = some d ↔
      ∃ out, (c x).step e = some (d x, out) ∧ d x.other = (c x.other).receive out := by
  unfold step
  rw [Option.bind_eq_bind, Option.bind_eq_some_iff]
  constructor
  · rintro ⟨⟨s, out⟩, hs, hd⟩
    cases hd
    exact ⟨out, by simpa using hs, by simp⟩
  · rintro ⟨out, hs, hd⟩
    refine ⟨(d x, out), hs, congrArg some (funext fun y => ?_)⟩
    by_cases hy : y = x
    · simp [hy]
    · rw [Side.eq_other_of_ne hy, hd, Function.update_self]

/-- Only `w` writes, and only the other end reads. -/
def OneWay (w : Side) : ConnEvent → Prop
  | (x, .mywrite _) => x = w
  | (x, .read _) => x = w.other
  | _ => True

/-- The network neither loses nor duplicates packets. -/
def Lossless : ConnEvent → Prop
  | (_, .drop _) | (_, .duplicate _) => False
  | _ => True

/-- It moreover delivers them in order. -/
def Fifo : ConnEvent → Prop
  | (_, .drop _) | (_, .duplicate _) => False
  | (_, .process i _) => i = 0
  | _ => True

/-- Two ends that are connected, with nothing on its way and nothing transferred yet. -/
structure Fresh (c : Connection) : Prop where
  estab : ∀ x, (c x).sock.tcb.status = .estab
  mirrored : ∀ x, (c x.other).sock.address = (c x).sock.address.mirror
  inbox : ∀ x, (c x).inbox = []
  pc : ∀ x, (c x).pc = .idle
  readp : ∀ x, (c x).sock.readp = 0
  writep : ∀ x, (c x).sock.writep = 0
  sizep : ∀ x, (c x).sock.sizep = 0
  written : ∀ x, (c x).written = []
  returned : ∀ x, (c x).returned = []
  sent : ∀ x, (c x).sent = []
  arrived : ∀ x, (c x).arrived = []

def Quiet (c : Connection) : Prop := ∀ x, (c x).inbox = []

end Connection

end ITCP
