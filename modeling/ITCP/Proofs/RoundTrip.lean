import ITCP.Proofs.Format

/-!
# From one host to another

A TCP segment in an IP packet in a frame, passed on by any number of hosts. Each of them takes the
packet out of its frame and the payload out of the packet, and builds both anew; what arrives is
the segment that was sent, and the TTL tells how often it was passed on.
-/

namespace ITCP
open Lib

/-- The second frame comes of the first after `k` hosts have forwarded the packet in it. -/
inductive Travels : ℕ → List UInt8 → List UInt8 → Prop
  | here (frame : List UInt8) : Travels 0 frame frame
  | hop {k : ℕ} {frame frame₁ frame₂ : List UInt8} {n : Node} {id d : ℕ} {tmp : UInt8}
      {out : Node.Outcome} (h : Travels k frame frame₁) (hforwards : n.forwards frame₁ id = true)
      (hout : n.recvFrame frame₁ id tmp = some out) (hsent : (d, frame₂) ∈ out.sent) :
      Travels (k + 1) frame frame₂

namespace Node

variable {n : Node} {src dest : UInt32} {proto : UInt8} {buf : List UInt8} {ttl : ℤ}

/-! ### The lookup of a route -/

section

variable {mask : UInt32} {v : RtValue} {d : Device} {hops : List NextHop}

lemma lookForRoute_of_route (hdest : dest ≠ 0xffffffff)
    (hv : n.routeTable.find? ⟨dest, mask⟩ = some v) (hd : n.getDevice v.deviceID = some d) :
    n.lookForRoute dest mask = some [⟨v.dstMAC, d⟩] := by
  rw [lookForRoute, if_neg hdest, matchingRoutes_eq, hv, Option.toList_some, List.mapM_cons, hd]
  rfl

/-- A route through a device that is not there. -/
lemma lookForRoute_of_getDevice_none (hdest : dest ≠ 0xffffffff)
    (hv : n.routeTable.find? ⟨dest, mask⟩ = some v) (hd : n.getDevice v.deviceID = none) :
    n.lookForRoute dest mask = none := by
  rw [lookForRoute, if_neg hdest, matchingRoutes_eq, hv, Option.toList_some, List.mapM_cons, hd]
  rfl

lemma lookForRoute_of_none (hdest : dest ≠ 0xffffffff)
    (hnone : n.routeTable.find? ⟨dest, mask⟩ = none) :
    n.lookForRoute dest mask = n.broadcastHops := by
  rw [lookForRoute, if_neg hdest, matchingRoutes_eq, hnone]
  rfl

/-- The hops of a packet: all devices, or the one of the route for the destination. -/
lemma lookForRoute_cases (h : n.lookForRoute dest mask = some hops) :
    hops = n.currDevice.devices.map (fun d => ⟨bcm, d⟩) ∨
      ∃ d ∈ n.currDevice.devices, ∃ mac, hops = [⟨mac, d⟩] := by
  by_cases hdest : dest = 0xffffffff
  · rw [lookForRoute, if_pos hdest, broadcastHops_eq, Option.some.injEq] at h
    exact Or.inl h.symm
  cases hv : n.routeTable.find? ⟨dest, mask⟩ with
  | none =>
    rw [lookForRoute_of_none hdest hv, broadcastHops_eq, Option.some.injEq] at h
    exact Or.inl h.symm
  | some v =>
    cases hd : n.getDevice v.deviceID with
    | none =>
      rw [lookForRoute_of_getDevice_none hdest hv hd] at h
      cases h
    | some d =>
      rw [lookForRoute_of_route hdest hv hd, Option.some.injEq] at h
      exact Or.inr ⟨d, List.mem_of_getElem? hd, v.dstMAC, h.symm⟩

lemma lookForRoute_ne_nil (hne : n.currDevice.devices ≠ [])
    (h : n.lookForRoute dest mask = some hops) : hops ≠ [] := by
  obtain rfl | ⟨d, -, mac, rfl⟩ := lookForRoute_cases h
  · exact fun hnil => hne (List.map_eq_nil_iff.mp hnil)
  · exact List.cons_ne_nil _ _

end

/-- A packet goes out in one frame for each hop. -/
lemma sendIPPacket_frames {sent : List (ℕ × List UInt8)}
    (h : n.sendIPPacket src dest proto buf ttl = some sent) {p : ℕ × List UInt8} (hp : p ∈ sent) :
    ∃ destmac mac, p.2 = ipFrame src dest proto buf ttl destmac mac := by
  obtain ⟨hops, -, h⟩ := Option.bind_eq_some_iff.mp h
  obtain ⟨hop, -, hframe⟩ := (mapM_eq_some_imp h).2 p hp
  obtain ⟨device, -, rfl⟩ := Option.map_eq_some_iff.mp hframe
  exact ⟨hop.dstMAC, device.Mac, rfl⟩

/-- A packet goes out on the device of the route for its destination. -/
lemma sendIPPacket_of_route {v : RtValue} {d : Device} (hdest : dest ≠ 0xffffffff)
    (hv : n.routeTable.find? ⟨dest, fullMask⟩ = some v) (hd : n.getDevice v.deviceID = some d)
    (src : UInt32) (proto : UInt8) (buf : List UInt8) (ttl : ℤ) :
    n.sendIPPacket src dest proto buf ttl =
      some [(v.deviceID, ipFrame src dest proto buf ttl v.dstMAC d.Mac)] := by
  unfold sendIPPacket
  rw [lookForRoute_of_route hdest hv hd]
  simp only [Option.bind_eq_bind, Option.bind_some, List.mapM_cons, List.mapM_nil, sendFrame,
    getDevice_ID hd, hd, Option.map_some]
  rfl

lemma sendIPPacket_ne_nil (hne : n.currDevice.devices ≠ []) {sent : List (ℕ × List UInt8)}
    (h : n.sendIPPacket src dest proto buf ttl = some sent) : sent ≠ [] := by
  obtain ⟨hops, hroute, h⟩ := Option.bind_eq_some_iff.mp h
  have hlen := (mapM_eq_some_imp h).1
  intro hnil
  rw [hnil] at hlen
  exact lookForRoute_ne_nil hne hroute (List.length_eq_zero_iff.mp hlen.symm)

lemma recvFrame_forward {frame : List UInt8} {eth : EthFrame} {ip : IPFields} {id : ℕ} {tmp : UInt8}
    {out : Outcome} (heth : parseEth frame = some eth) (hip : parseIP eth.payload = some ip)
    (hforwards : n.forwards frame id = true) (h : n.recvFrame frame id tmp = some out) :
    n.currDevice.devices ≠ [] ∧
      n.forward ip.src ip.dst ip.protocol ip.payload ip.ttl.toNat = some out.sent := by
  have hframe : frameIP frame = some ip := by rw [frameIP, heth, Option.bind_some, hip]
  unfold forwards inTransit at hforwards
  rw [heth, hframe] at hforwards
  cases hd : n.getDevice id with
  | none =>
    rw [hd] at hforwards
    cases hforwards
  | some d =>
    rw [hd] at hforwards
    simp only [Bool.and_eq_true, bne_iff_ne, ne_eq] at hforwards
    obtain ⟨⟨hmac, hdst⟩, hproto⟩ := hforwards
    rw [recvFrame_eq heth hip hd hmac, if_neg hdst, if_neg hproto] at h
    obtain ⟨sent, hsent, rfl⟩ := Option.map_eq_some_iff.mp h
    exact ⟨List.ne_nil_of_mem (List.mem_of_getElem? hd), hsent⟩

lemma recvFrame_forwards {destmac mac : Mac} {id : ℕ} {tmp : UInt8} {out : Outcome}
    (hforwards : n.forwards (ipFrame src dest proto buf ttl destmac mac) id = true)
    (h : n.recvFrame (ipFrame src dest proto buf ttl destmac mac) id tmp = some out) :
    n.currDevice.devices ≠ [] ∧
      n.forward src dest proto buf (UInt8.ofInt ttl).toNat = some out.sent :=
  recvFrame_forward (parseEth_ipFrame _ _ _ _ _ _ _) (parseIP_constructIPPacket _ _ _ _ _) hforwards h

lemma recvFrame_delivers {d : Device} {id : ℕ} (hd : n.getDevice id = some d) (hip : d.IP = dest)
    {destmac mac : Mac} (hmac : d.Mac ≠ mac) (tmp : UInt8) :
    n.recvFrame (ipFrame src dest proto buf ttl destmac mac) id tmp =
      some ⟨n, [], some (constructIPPacket src dest proto buf ttl)⟩ := by
  rw [recvFrame_eq (parseEth_ipFrame _ _ _ _ _ _ _) (parseIP_constructIPPacket _ _ _ _ _) hd hmac.symm]
  exact if_pos hip

/-- A host that does not have the address on the receiving device sends the packet on. -/
lemma recvFrame_passes {d : Device} {id : ℕ} (hd : n.getDevice id = some d) (hip : d.IP ≠ dest)
    {destmac mac : Mac} (hmac : d.Mac ≠ mac) (hproto : proto ≠ L3_MYARP) {ttl : ℕ} (h1 : 1 ≤ ttl)
    (h255 : ttl ≤ 255) {sent : List (ℕ × List UInt8)}
    (hsend : n.sendIPPacket src dest proto buf (ttl - 1 : ℕ) = some sent) (tmp : UInt8) :
    n.recvFrame (ipFrame src dest proto buf ttl destmac mac) id tmp = some ⟨n, sent, none⟩ := by
  have hval : ((UInt8.ofInt (ttl : ℤ)).toNat : ℤ) = ttl :=
    toNat_ofInt (Int.natCast_nonneg ttl) (by omega)
  have hsub : (ttl : ℤ) - 1 = ((ttl - 1 : ℕ) : ℤ) := by omega
  rw [recvFrame_eq (parseEth_ipFrame _ _ _ _ _ _ _) (parseIP_constructIPPacket _ _ _ _ _) hd hmac.symm]
  dsimp only
  rw [if_neg hip, if_neg hproto, hval, forward, if_neg (by omega), hsub, hsend]
  rfl

end Node

/-- What comes of a packet after `k` hosts is the same packet with a TTL that is `k` less. -/
lemma Travels.frame_eq {src dest : UInt32} {proto : UInt8} {buf : List UInt8} {t : ℕ} (ht : t ≤ 255)
    {destmac mac : Mac} {k : ℕ} {frame : List UInt8}
    (h : Travels k (ipFrame src dest proto buf t destmac mac) frame) :
    k ≤ t ∧ ∃ destmac mac, frame = ipFrame src dest proto buf (t - k : ℕ) destmac mac := by
  generalize hfirst : ipFrame src dest proto buf t destmac mac = first at h
  induction h with
  | here => exact ⟨Nat.zero_le _, destmac, mac, hfirst.symm⟩
  | @hop k _ _ _ _ _ _ _ _ _ hforwards hout hsent ih =>
    obtain ⟨hk, destmac₁, mac₁, rfl⟩ := ih hfirst
    obtain ⟨-, hforward⟩ := Node.recvFrame_forwards hforwards hout
    have httl : ((UInt8.ofInt (t - k : ℕ)).toNat : ℤ) = (t - k : ℕ) :=
      toNat_ofInt (Int.natCast_nonneg _) (by omega)
    rw [httl, Node.forward] at hforward
    split at hforward
    · rw [← Option.some.inj hforward] at hsent
      cases hsent
    · have hframe := Node.sendIPPacket_frames hforward hsent
      have hsub : ((t - k : ℕ) : ℤ) - 1 = (t - (k + 1) : ℕ) := by omega
      rw [hsub] at hframe
      exact ⟨by omega, hframe⟩

/-- As long as the TTL is not used up, a host that forwards a packet sends it. -/
lemma sent_ne_nil {n : Node} {src dest : UInt32} {proto : UInt8} {buf : List UInt8} {t : ℕ}
    (h0 : 0 < t) (ht : t ≤ 255) {destmac mac : Mac} {id : ℕ} {tmp : UInt8} {out : Node.Outcome}
    (hforwards : n.forwards (ipFrame src dest proto buf t destmac mac) id = true)
    (hout : n.recvFrame (ipFrame src dest proto buf t destmac mac) id tmp = some out) :
    out.sent ≠ [] := by
  obtain ⟨hne, hforward⟩ := Node.recvFrame_forwards hforwards hout
  have httl : ((UInt8.ofInt t).toNat : ℤ) = t := toNat_ofInt (Int.natCast_nonneg _) (by omega)
  rw [httl, Node.forward, if_neg (by omega)] at hforward
  exact Node.sendIPPacket_ne_nil hne hforward

lemma recvPacket_eq {p : Segment} {seq ack : UInt32} {packet : List UInt8}
    (hraw : rawSegment packet = some { p with seq := seq, ack := ack }) (sockets : SocketSet) :
    recvPacket sockets packet = (recvIPPacket sockets p).map (fun r => (r.1, r.2, packet)) := by
  have hrecv : recvIPPacket sockets { p with seq := seq, ack := ack } = recvIPPacket sockets p := rfl
  unfold recvPacket
  rw [hraw, Option.bind_eq_bind, Option.bind_some, hrecv]
  cases recvIPPacket sockets p with
  | none => rfl
  | some r => rfl

/-- A segment with at most 1960 bytes of payload, sent with TTL `t` and forwarded by `k` hosts: the
total length is right in every frame, the TTL is `t - k`, and the host with the destination
address, if the frame is not from its own MAC address, receives and processes the same segment. -/
theorem wire_round_trip {p : Segment} (hlen : p.payload.length ≤ 1960) {t : ℕ} (ht : t ≤ 255)
    {size : UInt16} {other : UInt32} {destmac mac : Mac} {k : ℕ} {frame : List UInt8}
    (h : Travels k (constructFrame (constructIPPacket p.info.srcIP p.info.dstIP L4_TCP
      (p.encode size other) t) L2_IPV4 destmac mac) frame) :
    k ≤ t ∧ totalLength frame = some (40 + p.payload.length) ∧
    (frameTTL frame).map UInt8.toNat = some (t - k) ∧
    (∀ (n : Node) id tmp out, n.forwards frame id = true → n.recvFrame frame id tmp = some out →
      k < t → out.sent ≠ []) ∧
    ∃ eth, parseEth frame = some eth ∧
      (∀ (n : Node) id tmp d, n.getDevice id = some d → d.IP = p.info.dstIP → d.Mac ≠ eth.src →
        n.recvFrame frame id tmp = some ⟨n, [], some eth.payload⟩) ∧
      Segment.decode eth.payload = some p ∧
      (∀ sockets, recvPacket sockets eth.payload =
        (recvIPPacket sockets p).map (fun r => (r.1, r.2, eth.payload))) ∧
      ∀ (s : MySocket) tmp, s.readPacket eth.payload tmp = s.readIPPacket p tmp := by
  obtain ⟨hk, destmac, mac, rfl⟩ := Travels.frame_eq ht h
  have hdecode : Segment.decode (constructIPPacket p.info.srcIP p.info.dstIP L4_TCP
      (p.encode size other) (t - k : ℕ)) = some p := decode_constructIPPacket p size other _
  refine ⟨hk, ?_, ?_, fun n id tmp out hforwards hout hlt => ?_, _, parseEth_ipFrame _ _ _ _ _ _ _,
    fun n id tmp d hd hip hmac => Node.recvFrame_delivers hd hip hmac tmp, hdecode,
    recvPacket_eq (rawSegment_constructIPPacket p size other _), fun s tmp => ?_⟩
  · rw [totalLength_ipFrame (by rw [Segment.encode_length]; omega), Segment.encode_length]
    congr 1
    omega
  · have httl : ((UInt8.ofInt (t - k : ℕ)).toNat : ℤ) = (t - k : ℕ) :=
      toNat_ofInt (Int.natCast_nonneg _) (by omega)
    rw [frameTTL_ipFrame, Option.map_some, Option.some.injEq]
    exact_mod_cast httl
  · exact sent_ne_nil (by omega) (by omega) hforwards hout
  · rw [MySocket.readPacket, hdecode]
    rfl

/-- What `sendTCPPacket` sends is read back after at most ten hosts. -/
theorem sendTCPPacket_round_trip {n : Node} {p : Segment} {size : UInt16} {other : UInt32}
    {sent : List (ℕ × List UInt8)} (hsent : n.sendTCPPacket p size other = some sent)
    {q : ℕ × List UInt8} (hq : q ∈ sent) {k : ℕ} {frame : List UInt8} (h : Travels k q.2 frame) :
    k ≤ 10 ∧ ∃ eth, parseEth frame = some eth ∧ Segment.decode eth.payload = some p := by
  obtain ⟨destmac, mac, hframe⟩ := Node.sendIPPacket_frames hsent hq
  rw [hframe] at h
  obtain ⟨hk, destmac, mac, rfl⟩ := Travels.frame_eq (t := 10) (by omega) h
  exact ⟨hk, _, parseEth_ipFrame _ _ _ _ _ _ _, decode_constructIPPacket p size other _⟩

def relay : Node :=
  ⟨⟨[⟨⟨2, 0, 0, 0, 0, 0⟩, 2, "eth0", 0⟩, ⟨⟨3, 0, 0, 0, 0, 0⟩, 3, "eth1", 1⟩], by decide,
    by decide⟩, .empty⟩

/-- A segment with one byte of payload, and the frame in which it is sent with TTL 10. -/
def passing (dstIP : UInt32) : Segment := ⟨⟨1, dstIP, 5, 6⟩, 7, 8, setAck 0, [9]⟩

def passingFrame (dstIP : UInt32) (mac : Mac) : List UInt8 :=
  constructFrame (constructIPPacket 1 dstIP L4_TCP ((passing dstIP).encode 0 0) 10) L2_IPV4 bcm mac

theorem wire_round_trip_oneHop : ∃ frame, Travels 1 (passingFrame 4 ⟨1, 0, 0, 0, 0, 0⟩) frame ∧
    (frameTTL frame).map UInt8.toNat = some 9 ∧
    ∃ eth, parseEth frame = some eth ∧ Segment.decode eth.payload = some (passing 4) := by
  have hsome : (relay.recvFrame (passingFrame 4 ⟨1, 0, 0, 0, 0, 0⟩) 0 0).isSome := by
    decide +kernel
  have hforwards : relay.forwards (passingFrame 4 ⟨1, 0, 0, 0, 0, 0⟩) 0 = true := by
    decide +kernel
  obtain ⟨out, hout⟩ := Option.isSome_iff_exists.mp hsome
  obtain ⟨q, hq⟩ := List.exists_mem_of_ne_nil _
    (sent_ne_nil (t := 10) (by decide) (by decide) hforwards hout)
  have htravels := Travels.hop (.here _) hforwards hout hq
  obtain ⟨-, -, httl, -, eth, heth, -, hdecode, -⟩ :=
    wire_round_trip (p := passing 4) (by decide) (t := 10) (by decide) htravels
  exact ⟨_, htravels, httl, eth, heth, hdecode⟩

/-- A frame with the MAC address of the device on which it arrives is dropped, even if the packet in
it is for this device. -/
theorem wire_round_trip_fails : ∃ d, relay.getDevice 0 = some d ∧ d.IP = 2 ∧
    (relay.recvFrame (passingFrame 2 d.Mac) 0 0).map Node.Outcome.delivered = some none :=
  ⟨_, (Option.some_get (by decide)).symm, rfl, by decide +kernel⟩

end ITCP
