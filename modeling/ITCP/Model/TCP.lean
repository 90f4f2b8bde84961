import ITCP.Model.Socket

/-!
# Processing of TCP packets

`readIPPacket`, `recvTCPPacket` and `sendTCPPacket` of `tcp.cc` on one socket. A `Segment` is a
packet as `readIPPacket` decodes it and as `sendTCPPacket` is asked to send it. Control packets
carry one byte that nobody has written, so the functions that send them take it as an argument.
-/

namespace ITCP
open Lib

def isSyn (flag : UInt16) : Bool := flag &&& ((1 : UInt16) <<< 9) != 0
def isFin (flag : UInt16) : Bool := flag &&& ((1 : UInt16) <<< 8) != 0
def isAck (flag : UInt16) : Bool := flag &&& ((1 : UInt16) <<< 12) != 0
def setSyn (flag : UInt16) : UInt16 := flag ||| ((1 : UInt16) <<< 9)
def setFin (flag : UInt16) : UInt16 := flag ||| ((1 : UInt16) <<< 8)
def setAck (flag : UInt16) : UInt16 := flag ||| ((1 : UInt16) <<< 12)

structure Segment where
  info : Tuple4
  seq : UInt32
  ack : UInt32
  flag : UInt16
  payload : List UInt8
  deriving DecidableEq, Inhabited

/-- The IP packet with the segment fits into the buffers of 2000 bytes that the receive functions
copy it into. -/
def Segment.Fits (p : Segment) : Prop := 40 + p.payload.length ≤ 2000

instance (p : Segment) : Decidable p.Fits := inferInstanceAs (Decidable (_ ≤ _))

/-- `sendTCPPacket`: what is handed down to `sendIPPacket`. -/
def sendTCPPacket (buf : List UInt8) (info : Tuple4) (seq ack : UInt32) (flag : UInt16) : Segment :=
  ⟨info, seq, ack, flag, buf⟩

namespace MySocket

/-- The data branch of `recvTCPPacket`. -/
def recvData (s : MySocket) (p : Segment) (tmp : UInt8) : Option (MySocket × List Segment) := do
  let len := UInt32.ofNat p.payload.length
  let databuf ← s.copyIn p.seq.toNat p.payload
  let sizep := if p.seq + len > u32 s.sizep then i32 (p.seq + len) else s.sizep
  some ({ s with databuf := databuf, sizep := sizep },
    [sendTCPPacket [tmp] p.info.mirror p.ack (p.seq + len) (setAck 0)])

/-- The ACK branch of `recvTCPPacket`. The comparisons with `sizep` are unsigned. -/
def recvAck (s : MySocket) (p : Segment) : Option (MySocket × List Segment) :=
  let len := UInt32.ofNat p.payload.length
  let sizep := u32 s.sizep
  if s.role = .server then some (s, [])
  else if p.ack ≥ sizep then some ({ s with writep := i32 p.ack }, [])
  else do
    let leng := if sizep - p.ack < 1000 then sizep - p.ack else 1000
    let buf ← s.copyOut p.ack.toNat leng.toNat
    some ({ s with writep := i32 p.ack },
      [sendTCPPacket buf p.info.mirror p.ack (p.seq + len) 0])

def recvTCPPacket (s : MySocket) (p : Segment) (tmp : UInt8) : Option (MySocket × List Segment) :=
  if isAck p.flag then s.recvAck p else s.recvData p tmp

/-- A control packet sent back to where `p` came from. -/
def reply (p : Segment) (tmp : UInt8) (flag : UInt16) : Segment :=
  sendTCPPacket [tmp] p.info.mirror p.ack (p.seq + 1) flag

/-- `readIPPacket` on the socket of the packet. -/
def readIPPacket (s : MySocket) (p : Segment) (tmp : UInt8) : Option (MySocket × List Segment) :=
  if ¬p.Fits then none else
  let s := if s.tcb.status = .synsent ∧ s.tcb.role = .server then
    { s with address := p.info.mirror } else s
  if isSyn p.flag && isAck p.flag then
    if s.tcb.status = .synsent then
      some ({ s.setStatus .estab with connReady := true }, [reply p tmp (setAck 0)])
    else some (s, [])
  else if isSyn p.flag && !isAck p.flag then
    if s.tcb.status = .listen then
      some ({ s.setStatus .synrcvd with accSynReady := true }, [reply p tmp (setAck (setSyn 0))])
    else if s.tcb.status = .synsent then some (s.setStatus .synrcvd, [reply p tmp (setAck 0)])
    else some (s, [])
  else if isFin p.flag then
    if s.tcb.status = .estab then
      some (s.setStatus .lastack, [reply p tmp (setAck 0), reply p tmp (setFin 0)])
    else if s.tcb.status = .finwait1 then some (s.setStatus .closing, [reply p tmp (setAck 0)])
    else if s.tcb.status = .finwait2 then some (s.setStatus .timewait, [reply p tmp (setAck 0)])
    else some (s, [])
  else if isAck p.flag then
    if s.tcb.status = .synrcvd then some ({ s.setStatus .estab with accAckReady := true }, [])
    else if s.tcb.status = .finwait1 then some (s.setStatus .finwait2, [])
    else if s.tcb.status = .closing then some (s.setStatus .timewait, [])
    else if s.tcb.status = .lastack then some (s.setStatus .closed, [])
    else if s.tcb.status = .estab then s.recvTCPPacket p tmp
    else some (s, [])
  else s.recvTCPPacket p tmp

/-- The section of `__wrap_write` that runs under `data_mtx`: it sends the bytes from `writep` on,
at most 1000 of them, and moves `writep` behind them. -/
def wrapWriteSend (s : MySocket) : Option (MySocket × List Segment) := do
  let Len := if s.writep + 1000 > s.sizep then s.sizep - s.writep else 1000
  let buf ← s.copyOut s.writep Len
  some ({ s with writep := s.writep + Len },
    [sendTCPPacket buf s.address (u32 s.writep) 0 0])

/-- `__wrap_connect` up to its wait loop, with the SYN that it sends. -/
def wrapConnect (s : MySocket) (address : Tuple4) (tmp : UInt8) : MySocket × Segment :=
  ({ s with tcb := ⟨.client, .synsent⟩, address := address },
    sendTCPPacket [tmp] address 0 0 (setSyn 0))

/-- The FIN that `__wrap_close` sends. -/
def wrapCloseFin (s : MySocket) (tmp : UInt8) : Segment :=
  sendTCPPacket [tmp] s.address 0 0 (setFin 0)

end MySocket

end ITCP
