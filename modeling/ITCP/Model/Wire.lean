import ITCP.Model.Routing
import ITCP.Model.Kernel
import ITCP.Lib.Bytes

/-!
# Frames and packets

Construction and reading of Ethernet frames, IP packets and TCP segments, byte by byte, and the
functions that send, receive and forward them: `packetio.cc`, `ip.cc`, `forward.cc` and `myArp.cc`.
A header field that lies outside the bytes received makes the result undefined.
-/

namespace ITCP
open Lib

def L2_IPV4 : UInt16 := 0x0800
def L3_MYARP : UInt8 := 0x8f

def constructIPPacket (src dest : UInt32) (proto : UInt8) (buf : List UInt8) (ttl : ℤ) :
    List UInt8 :=
  let totalLength := 20 + buf.length
  [0x45, 0, UInt8.ofNat (totalLength / 2 ^ 8), UInt8.ofNat totalLength, 0, 0, 0, 0,
    UInt8.ofInt ttl, proto, 0, 0] ++ (le32 src ++ (le32 dest ++ buf))

/-- `constructFrame` for a device with the given MAC address; the checksum is zero. -/
def constructFrame (buf : List UInt8) (ethtype : UInt16) (destmac mac : Mac) : List UInt8 :=
  destmac.bytes ++ (mac.bytes ++ (le16 (swap16 ethtype) ++ (buf ++ [0, 0, 0, 0])))

/-- The fields of an Ethernet frame that `recvFrame` reads. -/
structure EthFrame where
  src : Mac
  payload : List UInt8

structure IPFields where
  src : UInt32
  dst : UInt32
  ttl : UInt8
  protocol : UInt8
  payload : List UInt8

def parseEth (frame : List UInt8) : Option EthFrame :=
  if frame.length < 18 then none
  else do
    let src ← macAt frame 6
    some ⟨src, (frame.drop 14).take (frame.length - 18)⟩

def parseIP (packet : List UInt8) : Option IPFields := do
  let src ← word32 packet 12
  let dst ← word32 packet 16
  let ttl ← packet[8]?
  let protocol ← packet[9]?
  some ⟨src, dst, ttl, protocol, packet.drop 20⟩

def frameIP (frame : List UInt8) : Option IPFields :=
  (parseEth frame).bind (fun eth => parseIP eth.payload)

def frameTTL (frame : List UInt8) : Option UInt8 := (frameIP frame).map IPFields.ttl

/-- The total length of the packet in a frame, from its header. -/
def totalLength (frame : List UInt8) : Option ℕ := do
  let hi ← frame[16]?
  let lo ← frame[17]?
  some (hi.toNat * 2 ^ 8 + lo.toNat)

namespace Node

variable (n : Node)

/-- `sendFrame`: the device on which the frame goes out, and its bytes. -/
def sendFrame (buf : List UInt8) (ethtype : UInt16) (destmac : Mac) (id : ℕ) :
    Option (ℕ × List UInt8) :=
  (n.getDevice id).map (fun device => (id, constructFrame buf ethtype destmac device.Mac))

def sendIPPacket (src dest : UInt32) (proto : UInt8) (buf : List UInt8) (ttl : ℤ) :
    Option (List (ℕ × List UInt8)) := do
  let nHop ← n.lookForRoute dest fullMask
  nHop.mapM (fun h =>
    n.sendFrame (constructIPPacket src dest proto buf ttl) L2_IPV4 h.dstMAC h.srcDevice.ID)

def forward (src dest : UInt32) (proto : UInt8) (buf : List UInt8) (ttl : ℤ) :
    Option (List (ℕ × List UInt8)) :=
  if ttl = 0 then some [] else n.sendIPPacket src dest proto buf (ttl - 1)

/-- `sendArpBroadCast`; the byte sent is one that nobody has written. -/
def sendArpBroadCast (srcIP : UInt32) (ttl : ℤ) (tmp : UInt8) : Option (List (ℕ × List UInt8)) :=
  n.sendIPPacket srcIP 0xffffffff L3_MYARP [tmp] ttl

/-- `sendArp`: one broadcast for each address of the host. -/
def sendArp (tmp : UInt8) : Option (List (ℕ × List UInt8)) := do
  let sent ← n.currDevice.devices.mapM
    (fun d => n.sendIPPacket d.IP 0xffffffff L3_MYARP [tmp] 8)
  some sent.flatten

/-- `recvArp`: the new tables and the frames sent. -/
def recvArp (srcIP mask : UInt32) (id : ℕ) (srcMac : Mac) (ttl : ℤ) (tmp : UInt8) :
    Option (Node × List (ℕ × List UInt8)) :=
  if n.owns srcIP then some (n, [])
  else do
    let device ← n.getDevice id
    let ttlList := n.myArpLookForRoute srcIP mask
    let learn (n : Node) := (n.setRoutingTable srcIP mask srcMac device.Name ttl).2
    let n' := if ttlList = [] then learn n
      else ttlList.foldl (fun n t => if t < ttl then learn n else n) n
    let sent ← n'.sendArpBroadCast srcIP (ttl - 1) tmp
    some (n', sent)

/-- What comes of a received frame: the new tables, the frames sent, and the packet handed to the
IP callback. -/
structure Outcome where
  node : Node
  sent : List (ℕ × List UInt8)
  delivered : Option (List UInt8)

/-- `recvFrame`. The address of the receiving device decides whether the packet is delivered. -/
def recvFrame (frame : List UInt8) (id : ℕ) (tmp : UInt8) : Option Outcome := do
  let eth ← parseEth frame
  let device ← n.getDevice id
  if eth.src = device.Mac then some ⟨n, [], none⟩
  else do
    let ip ← parseIP eth.payload
    if device.IP = ip.dst then some ⟨n, [], some eth.payload⟩
    else if ip.protocol = L3_MYARP then do
      let (n', sent) ← n.recvArp ip.src fullMask id eth.src ip.ttl.toNat tmp
      some ⟨n', sent, none⟩
    else do
      let sent ← n.forward ip.src ip.dst ip.protocol ip.payload ip.ttl.toNat
      some ⟨n, sent, none⟩

/-- The device hears what it sends itself, and `recvFrame` drops such a frame. -/
def ownFrame (frame : List UInt8) (id : ℕ) : Bool :=
  match parseEth frame, n.getDevice id with
  | some eth, some device => eth.src == device.Mac
  | _, _ => false

/-- `recvFrame` gets past the addresses of the frame and of the packet in it. -/
def inTransit (frame : List UInt8) (id : ℕ) (p : IPFields → Bool) : Bool :=
  match parseEth frame, frameIP frame, n.getDevice id with
  | some eth, some ip, some device => eth.src != device.Mac && device.IP != ip.dst && p ip
  | _, _, _ => false

/-- `recvFrame` passes the frame on to `recvArp`, which goes on to re-broadcast it. -/
def rebroadcasts (frame : List UInt8) (id : ℕ) : Bool :=
  n.inTransit frame id (fun ip => ip.protocol == L3_MYARP && !n.owns ip.src)

/-- `recvFrame` passes the frame on to `forward`. -/
def forwards (frame : List UInt8) (id : ℕ) : Bool :=
  n.inTransit frame id (fun ip => ip.protocol != L3_MYARP)

variable {n} {frame : List UInt8} {id : ℕ} {tmp : UInt8} {eth : EthFrame} {ip : IPFields}
  {d : Device}

lemma getDevice_of_recvFrame {out : Outcome} (h : n.recvFrame frame id tmp = some out) :
    ∃ d, n.getDevice id = some d := by
  obtain ⟨eth, -, h⟩ := Option.bind_eq_some_iff.mp h
  obtain ⟨d, hd, -⟩ := Option.bind_eq_some_iff.mp h
  exact ⟨d, hd⟩

/-- What can come of a frame: nothing is sent, or the host learns from a myArp packet, or it forwards
any other packet. -/
lemma recvFrame_outcome {out : Outcome} (h : n.recvFrame frame id tmp = some out) :
    (out.node = n ∧ out.sent = []) ∨ ∃ ip, frameIP frame = some ip ∧
      ((ip.protocol = L3_MYARP ∧ ∃ mac,
        n.recvArp ip.src fullMask id mac ip.ttl.toNat tmp = some (out.node, out.sent)) ∨
      (ip.protocol ≠ L3_MYARP ∧ out.node = n ∧
        n.forward ip.src ip.dst ip.protocol ip.payload ip.ttl.toNat = some out.sent)) := by
  obtain ⟨eth, heth, h⟩ := Option.bind_eq_some_iff.mp h
  obtain ⟨d, -, h⟩ := Option.bind_eq_some_iff.mp h
  split_ifs at h
  · rw [← Option.some.inj h]
    exact Or.inl ⟨rfl, rfl⟩
  obtain ⟨ip, hip, h⟩ := Option.bind_eq_some_iff.mp h
  have hframe : frameIP frame = some ip := by rw [frameIP, heth, Option.bind_some, hip]
  split_ifs at h with hdst hproto
  · rw [← Option.some.inj h]
    exact Or.inl ⟨rfl, rfl⟩
  · obtain ⟨⟨n', sent⟩, hrecv, h⟩ := Option.bind_eq_some_iff.mp h
    rw [← Option.some.inj h]
    exact Or.inr ⟨ip, hframe, Or.inl ⟨hproto, eth.src, hrecv⟩⟩
  · obtain ⟨sent, hforward, h⟩ := Option.bind_eq_some_iff.mp h
    rw [← Option.some.inj h]
    exact Or.inr ⟨ip, hframe, Or.inr ⟨hproto, rfl, hforward⟩⟩

/-- A packet that is handed to the IP callback is the one in the frame, and nothing is sent. -/
lemma recvFrame_delivered {out : Outcome} (h : n.recvFrame frame id tmp = some out)
    {packet : List UInt8} (hp : out.delivered = some packet) :
    out.node = n ∧ out.sent = [] ∧ frameIP frame = parseIP packet := by
  obtain ⟨eth, heth, h⟩ := Option.bind_eq_some_iff.mp h
  obtain ⟨d, -, h⟩ := Option.bind_eq_some_iff.mp h
  split_ifs at h
  · rw [← Option.some.inj h] at hp
    cases hp
  obtain ⟨ip, hip, h⟩ := Option.bind_eq_some_iff.mp h
  split_ifs at h
  · rw [← Option.some.inj h] at hp ⊢
    obtain rfl := Option.some.inj hp
    exact ⟨rfl, rfl, by rw [frameIP, heth, Option.bind_some]⟩
  · obtain ⟨r, -, h⟩ := Option.bind_eq_some_iff.mp h
    rw [← Option.some.inj h] at hp
    cases hp
  · obtain ⟨sent, -, h⟩ := Option.bind_eq_some_iff.mp h
    rw [← Option.some.inj h] at hp
    cases hp

lemma recvFrame_own (heth : parseEth frame = some eth) (hd : n.getDevice id = some d)
    (hmac : eth.src = d.Mac) : n.recvFrame frame id tmp = some ⟨n, [], none⟩ := by
  unfold recvFrame
  simp only [heth, hd, hmac, if_true, Option.bind_eq_bind, Option.bind_some]

lemma recvFrame_ownFrame (h : n.ownFrame frame id = true) :
    n.recvFrame frame id tmp = some ⟨n, [], none⟩ := by
  unfold ownFrame at h
  split at h
  · rename_i eth d heth hd
    exact recvFrame_own heth hd (beq_iff_eq.mp h)
  · cases h

lemma ownFrame_congr {n' : Node} (h : n'.currDevice = n.currDevice) :
    n'.ownFrame frame id = n.ownFrame frame id := by
  rw [ownFrame, getDevice, h, ← getDevice, ← ownFrame]

/-- A packet is taken where its address is that of the receiving device. -/
lemma recvFrame_eq (heth : parseEth frame = some eth) (hip : parseIP eth.payload = some ip)
    (hd : n.getDevice id = some d) (hmac : eth.src ≠ d.Mac) : n.recvFrame frame id tmp =
      if d.IP = ip.dst then some ⟨n, [], some eth.payload⟩
      else if ip.protocol = L3_MYARP then
        (n.recvArp ip.src fullMask id eth.src ip.ttl.toNat tmp).map (fun r => ⟨r.1, r.2, none⟩)
      else (n.forward ip.src ip.dst ip.protocol ip.payload ip.ttl.toNat).map
        (fun sent => ⟨n, sent, none⟩) := by
  unfold recvFrame
  simp only [heth, hip, hd, hmac, if_false, Option.bind_eq_bind, Option.bind_some]
  split_ifs
  · rfl
  · cases n.recvArp ip.src fullMask id eth.src ip.ttl.toNat tmp <;> rfl
  · cases n.forward ip.src ip.dst ip.protocol ip.payload ip.ttl.toNat <;> rfl

end Node

/-- The bytes that `sendTCPPacket` hands to `sendIPPacket`. The last six bytes of the header are
ones that nobody has written. -/
def Segment.encode (p : Segment) (size : UInt16) (other : UInt32) : List UInt8 :=
  le16 p.info.srcPort ++ (le16 p.info.dstPort ++ (le32 (swap32 p.seq) ++ (le32 (swap32 p.ack) ++
    (le16 p.flag ++ (le16 size ++ (le32 other ++ p.payload))))))

def L4_TCP : UInt8 := 0x6

/-- `sendTCPPacket`. -/
def Node.sendTCPPacket (n : Node) (p : Segment) (size : UInt16) (other : UInt32) :
    Option (List (ℕ × List UInt8)) :=
  n.sendIPPacket p.info.srcIP p.info.dstIP L4_TCP (p.encode size other) 10

/-- The fields that `recvIPPacket` and `readIPPacket` read from an IP packet, as they lie there. -/
def rawSegment (packet : List UInt8) : Option Segment := do
  let src ← word32 packet 12
  let dst ← word32 packet 16
  let srcPort ← word16 packet 20
  let dstPort ← word16 packet 22
  let seq ← word32 packet 24
  let ack ← word32 packet 28
  let flag ← word16 packet 32
  if packet.length < 40 then none
  else some ⟨⟨src, dst, srcPort, dstPort⟩, seq, ack, flag, packet.drop 40⟩

/-- The segment that `readIPPacket` processes: it brings the numbers into host byte order. -/
def Segment.decode (packet : List UInt8) : Option Segment :=
  (rawSegment packet).map (fun p => { p with seq := swap32 p.seq, ack := swap32 p.ack })

/-- `recvIPPacket` on the bytes of a packet: the socket chosen, the sockets, and the bytes
queued. -/
def recvPacket (sockets : SocketSet) (packet : List UInt8) :
    Option (ℤ × SocketSet × List UInt8) := do
  let p ← rawSegment packet
  let (connfd, sockets) ← recvIPPacket sockets p
  some (connfd, sockets, packet)

/-- `readIPPacket` on the bytes of a packet. -/
def MySocket.readPacket (s : MySocket) (packet : List UInt8) (tmp : UInt8) :
    Option (MySocket × List Segment) := do
  let p ← Segment.decode packet
  s.readIPPacket p tmp

/-- What has come of a frame once the packet in it, if that was delivered, has been processed. -/
structure Arrival where
  node : Node
  sent : List (ℕ × List UInt8)
  sockets : SocketSet
  socket : MySocket

/-- The frames in which the replies of `readIPPacket` leave, with the bytes of their headers that
nobody has written. -/
def Node.sendReplies (n : Node) (replies : List Segment) (unwritten : ℕ → UInt16 × UInt32) :
    Option (List (ℕ × List UInt8)) := do
  let sent ← replies.zipIdx.mapM
    (fun r => n.sendTCPPacket r.1 (unwritten r.2).1 (unwritten r.2).2)
  some sent.flatten

/-- The way of a frame through `recvFrame`, `recvIPPacket` and `readIPPacket`, and of the replies
through `sendTCPPacket`. The socket chosen for its packet is `s` by the time of `readIPPacket`. -/
def Node.receive (n : Node) (sockets : SocketSet) (s : MySocket) (frame : List UInt8) (id : ℕ)
    (tmp tmp' : UInt8) (unwritten : ℕ → UInt16 × UInt32) : Option Arrival := do
  let out ← n.recvFrame frame id tmp
  match out.delivered with
  | none => some ⟨out.node, out.sent, sockets, s⟩
  | some packet => do
    let (_, sockets', queued) ← recvPacket sockets packet
    let (t, replies) ← s.readPacket queued tmp'
    let sent ← out.node.sendReplies replies unwritten
    some ⟨out.node, out.sent ++ sent, sockets', t⟩

end ITCP
