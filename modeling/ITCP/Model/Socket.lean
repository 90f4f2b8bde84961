import Mathlib.Tactic
import ITCP.Lib.Memory

/-!
# Sockets

The records of `tcp.h` and `core.h`: the four-tuple, the control block and `mysocket_t` with its
stream buffer. An operation that the C++ code leaves undefined (a copy that leaves the buffer, a
signed overflow, a null or past-the-end access) has the result `none`.
-/

namespace ITCP
open Lib

def bufSize : ℕ := 2 ^ 20

/-- Conversion of an `int` to `uint32_t`. -/
def u32 (x : ℤ) : UInt32 := UInt32.ofInt x

/-- Conversion of a `uint32_t` to `int`. -/
def i32 (x : UInt32) : ℤ := x.toBitVec.toInt

lemma u32_toNat {x : ℤ} (h0 : 0 ≤ x) (h : x < 2 ^ 32) : (u32 x).toNat = x.toNat := by
  unfold u32 UInt32.ofInt
  rw [UInt32.toNat_ofNat', Int.emod_eq_of_lt h0 (by simpa using h)]
  omega

lemma i32_eq {x : UInt32} (h : x.toNat < 2 ^ 31) : i32 x = x.toNat := by
  unfold i32
  rw [BitVec.toInt_eq_toNat_of_lt (by simpa using by omega)]
  rfl

/-- A conversion that does not come out negative keeps the value. -/
lemma i32_of_nonneg {x : UInt32} (h : 0 ≤ i32 x) : i32 x = x.toNat := by
  have hlt := x.toBitVec.isLt
  unfold i32 at h ⊢
  rw [BitVec.toInt_eq_toNat_cond] at h ⊢
  split_ifs at h ⊢
  · rfl
  · omega

/-- The range of `int`. -/
def fitsInt (x : ℤ) : Prop := -2 ^ 31 ≤ x ∧ x < 2 ^ 31

instance (x : ℤ) : Decidable (fitsInt x) := inferInstanceAs (Decidable (_ ∧ _))

inductive Role
  | unset
  | server
  | client
  deriving DecidableEq

/-- The values of `TCB::status`; `unset` is the `-1` of the default constructor. -/
inductive Status
  | unset
  | closed
  | listen
  | synsent
  | synrcvd
  | estab
  | finwait1
  | finwait2
  | closewait
  | lastack
  | closing
  | timewait
  deriving DecidableEq

structure TCB where
  role : Role
  status : Status
  deriving DecidableEq

structure Tuple4 where
  srcIP : UInt32
  dstIP : UInt32
  srcPort : UInt16
  dstPort : UInt16
  deriving DecidableEq, Inhabited

/-- The tuple of the opposite direction, as the receive functions build it field by field. -/
def Tuple4.mirror (t : Tuple4) : Tuple4 := ⟨t.dstIP, t.srcIP, t.dstPort, t.srcPort⟩

@[simp] lemma Tuple4.mirror_mirror (t : Tuple4) : t.mirror.mirror = t := rfl

lemma Tuple4.mirror_injective {t t' : Tuple4} (h : t.mirror = t'.mirror) : t = t' := by
  rw [← t.mirror_mirror, h, t'.mirror_mirror]

structure MySocket where
  databuf : ℕ → UInt8
  readp : ℤ
  writep : ℤ
  sizep : ℤ
  role : Role
  /-- The tuple stored in `address->sa_data`. -/
  address : Tuple4
  tcb : TCB
  connReady : Bool
  accSynReady : Bool
  accAckReady : Bool

namespace MySocket

/-- The constructor used by `socket_create`. It leaves the address and `acc_ack_ready` unset. -/
def create (address : Tuple4) (accAckReady : Bool) : MySocket where
  databuf := fun _ => 0
  readp := 0
  writep := 0
  sizep := 0
  role := .unset
  address := address
  tcb := ⟨.unset, .unset⟩
  connReady := false
  accSynReady := false
  accAckReady := accAckReady

def setStatus (s : MySocket) (status : Status) : MySocket :=
  { s with tcb := { s.tcb with status := status } }

@[simp] lemma setStatus_status (s : MySocket) (x : Status) : (s.setStatus x).tcb.status = x := rfl
@[simp] lemma setStatus_address (s : MySocket) (x : Status) :
    (s.setStatus x).address = s.address := rfl
@[simp] lemma setStatus_role (s : MySocket) (x : Status) : (s.setStatus x).role = s.role := rfl
@[simp] lemma setStatus_accSynReady (s : MySocket) (x : Status) :
    (s.setStatus x).accSynReady = s.accSynReady := rfl
@[simp] lemma setStatus_accAckReady (s : MySocket) (x : Status) :
    (s.setStatus x).accAckReady = s.accAckReady := rfl

/-- `memcpy(buf, databuf+off, len)`. -/
def copyOut (s : MySocket) (off len : ℤ) : Option (List UInt8) :=
  if 0 ≤ off ∧ 0 ≤ len ∧ off + len ≤ bufSize then some (readAt s.databuf off.toNat len.toNat)
  else none

def copyIn (s : MySocket) (off : ℤ) (buf : List UInt8) : Option (ℕ → UInt8) :=
  if 0 ≤ off ∧ off + buf.length ≤ bufSize then some (writeAt s.databuf off.toNat buf) else none

/-- `bind`: only the first call has an effect. All sockets of the model have type `SOCK_STREAM`, so that
it always makes a new control block. -/
def bind (s : MySocket) (address : Tuple4) : MySocket × ℤ :=
  if s.role ≠ .unset then (s, -1)
  else ({ s with role := .server, address := address, tcb := ⟨.server, .closed⟩ }, 0)

/-- The condition on which `myread` leaves its wait loop. -/
def readReady (s : MySocket) (len : ℤ) : Prop := ¬s.sizep < s.readp + len

instance (s : MySocket) (len : ℤ) : Decidable (s.readReady len) :=
  inferInstanceAs (Decidable (¬_))

/-- `myread` after its wait loop. -/
def myread (s : MySocket) (len : ℤ) : Option (List UInt8 × MySocket) := do
  let buf ← s.copyOut s.readp len
  some (buf, { s with readp := s.readp + len })

def mywrite (s : MySocket) (buf : List UInt8) : Option MySocket := do
  let databuf ← s.copyIn s.sizep buf
  some { s with databuf := databuf, sizep := s.sizep + buf.length }

end MySocket

end ITCP
