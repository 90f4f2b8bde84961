import ITCP.Proofs.Forward

/-!
# What a host does with a packet

A host should take the packets for any of its addresses and pass on all others unchanged. The test
of `recvFrame` looks at the address of the receiving device only, the header of a packet that is
passed on is built anew from five of its fields, and where the packet ends is taken from the length
of the frame.
-/

namespace ITCP
open Lib

namespace Node

variable {n : Node} {frame : List UInt8} {id : ℕ} {tmp : UInt8} {eth : EthFrame} {ip : IPFields}
  {d : Device}

/-- What a host should do with a packet, whichever device it arrives on: take it when it is for one
of its addresses, learn from a myArp packet, and forward everything else. -/
def dispatch (n : Node) (eth : EthFrame) (ip : IPFields) (id : ℕ) (tmp : UInt8) : Option Outcome :=
  if n.owns ip.dst then some ⟨n, [], some eth.payload⟩
  else if ip.protocol = L3_MYARP then
    (n.recvArp ip.src fullMask id eth.src ip.ttl.toNat tmp).map (fun r => ⟨r.1, r.2, none⟩)
  else (n.forward ip.src ip.dst ip.protocol ip.payload ip.ttl.toNat).map (fun sent => ⟨n, sent, none⟩)

/-- A packet is treated as it should be exactly when the host has its destination on the receiving
device, or not at all. -/
theorem local_delivery (heth : parseEth frame = some eth) (hip : parseIP eth.payload = some ip)
    (hd : n.getDevice id = some d) (hmac : eth.src ≠ d.Mac) (tmp : UInt8) :
    n.recvFrame frame id tmp = n.dispatch eth ip id tmp ↔ (n.owns ip.dst → d.IP = ip.dst) := by
  rw [recvFrame_eq heth hip hd hmac, dispatch]
  by_cases hdst : d.IP = ip.dst
  · have howns : n.owns ip.dst = true := hdst ▸ owns_of_getDevice hd
    rw [if_pos hdst, if_pos howns]
    exact iff_of_true rfl fun _ => hdst
  rw [if_neg hdst]
  by_cases howns : n.owns ip.dst
  · rw [if_pos howns]
    refine iff_of_false (fun h => ?_) fun h => hdst (h howns)
    have hdelivered := congrArg (fun out => out.map Outcome.delivered) h
    split_ifs at hdelivered
    · cases hrecv : n.recvArp ip.src fullMask id eth.src ip.ttl.toNat tmp <;>
        simp [hrecv] at hdelivered
    · cases hforward : n.forward ip.src ip.dst ip.protocol ip.payload ip.ttl.toNat <;>
        simp [hforward] at hdelivered
  · rw [if_neg howns]
    exact iff_of_true rfl fun h => absurd h howns

/-- A packet for the device on which it arrives. -/
theorem local_delivery_receiving : ∃ eth ip, parseEth (passingFrame 2 ⟨1, 0, 0, 0, 0, 0⟩) = some eth ∧
    parseIP eth.payload = some ip ∧
    relay.recvFrame (passingFrame 2 ⟨1, 0, 0, 0, 0, 0⟩) 0 0 = relay.dispatch eth ip 0 0 := by
  have hip := parseIP_constructIPPacket 1 2 L4_TCP ((passing 2).encode 0 0) 10
  have heth : parseEth (passingFrame 2 ⟨1, 0, 0, 0, 0, 0⟩) = some _ := parseEth_ipFrame _ _ _ _ _ _ _
  have hd : relay.getDevice 0 = some ⟨⟨2, 0, 0, 0, 0, 0⟩, 2, "eth0", 0⟩ := rfl
  exact ⟨_, _, heth, hip, (local_delivery heth hip hd (by decide) 0).mpr fun _ => rfl⟩

/-- A packet for the other device of the host is not taken, and goes out again on both. -/
theorem local_delivery_fails : ∃ eth ip, parseEth (passingFrame 3 ⟨1, 0, 0, 0, 0, 0⟩) = some eth ∧
    parseIP eth.payload = some ip ∧ relay.owns ip.dst ∧
    (relay.recvFrame (passingFrame 3 ⟨1, 0, 0, 0, 0, 0⟩) 0 0).map
      (fun out => (out.delivered, out.sent.map Prod.fst)) = some (none, [0, 1]) ∧
    relay.recvFrame (passingFrame 3 ⟨1, 0, 0, 0, 0, 0⟩) 0 0 ≠ relay.dispatch eth ip 0 0 := by
  have hip := parseIP_constructIPPacket 1 3 L4_TCP ((passing 3).encode 0 0) 10
  have heth : parseEth (passingFrame 3 ⟨1, 0, 0, 0, 0, 0⟩) = some _ := parseEth_ipFrame _ _ _ _ _ _ _
  have hsent : (relay.recvFrame (passingFrame 3 ⟨1, 0, 0, 0, 0, 0⟩) 0 0).map
      (fun out => (out.delivered, out.sent.map Prod.fst)) = some (none, [0, 1]) := by decide +kernel
  have howns : relay.owns 3 = true := by decide
  refine ⟨_, _, heth, hip, howns, hsent, fun h => ?_⟩
  rw [h, dispatch, if_pos howns] at hsent
  cases hsent

end Node

/-! ### Forwarded packets -/

/-- An IPv4 packet with a header of 20 bytes, as long as its header says. -/
structure IsIPv4 (packet : List UInt8) : Prop where
  header : 20 ≤ packet.length
  version : packet[0]? = some 0x45
  total : ∃ hi lo : UInt8, packet[2]? = some hi ∧ packet[3]? = some lo ∧
    packet.length = hi.toNat * 2 ^ 8 + lo.toNat

/-- What a router may do to a packet: the TTL is one less, and the header checksum is free. -/
structure PassedOn (packet packet' : List UInt8) : Prop where
  length : packet'.length = packet.length
  ttl : packet'[8]? = (packet[8]?).map (· - 1)
  bytes : ∀ i, i ≠ 8 → i ≠ 10 → i ≠ 11 → packet'[i]? = packet[i]?

/-- The type of service, and the four bytes of identification, flags and fragment offset. -/
def plainHeader (packet : List UInt8) : Prop :=
  packet[1]? = some 0 ∧ ∀ i, 4 ≤ i → i < 8 → packet[i]? = some 0

lemma IsIPv4.total_bytes {packet : List UInt8} (hp : IsIPv4 packet) :
    packet[2]? = some (UInt8.ofNat (packet.length / 2 ^ 8)) ∧
      packet[3]? = some (UInt8.ofNat packet.length) := by
  obtain ⟨hi, lo, hhi, hlo, hlen⟩ := hp.total
  have hhi256 := hi.toNat_lt
  have hlo256 := lo.toNat_lt
  rw [hhi, hlo, Option.some.injEq, Option.some.injEq, ← UInt8.toNat_inj, ← UInt8.toNat_inj,
    UInt8.toNat_ofNat', UInt8.toNat_ofNat']
  constructor
  · omega
  · omega

/-- `recvFrame` takes all but the last four bytes behind the Ethernet header for the packet. -/
lemma payload_of_trailer {frame packet trailer : List UInt8} {eth : EthFrame}
    (hframe : frame.drop 14 = packet ++ trailer) (heth : parseEth frame = some eth) :
    eth.payload = (packet ++ trailer).take (packet.length + trailer.length - 4) := by
  have hlen := congrArg List.length hframe
  rw [List.length_drop, List.length_append] at hlen
  obtain ⟨h18, hpayload⟩ := parseEth_payload heth
  rw [hpayload, hframe]
  congr 1
  omega

/-- The packet that `forward` builds is the received one if that has a plain header. -/
lemma passedOn_iff {packet : List UInt8} {ip : IPFields} (hp : IsIPv4 packet)
    (hip : parseIP packet = some ip) (httl : ip.ttl ≠ 0) :
    PassedOn packet (constructIPPacket ip.src ip.dst ip.protocol ip.payload (ip.ttl.toNat - 1)) ↔
      plainHeader packet := by
  obtain ⟨src, hsrc, hip⟩ := Option.bind_eq_some_iff.mp hip
  obtain ⟨dst, hdst, hip⟩ := Option.bind_eq_some_iff.mp hip
  obtain ⟨ttl, httl8, hip⟩ := Option.bind_eq_some_iff.mp hip
  obtain ⟨protocol, hprotocol, hip⟩ := Option.bind_eq_some_iff.mp hip
  obtain rfl := Option.some.inj hip
  dsimp only at httl ⊢
  have hlen : 20 + (packet.drop 20).length = packet.length := by
    rw [List.length_drop]
    have := hp.header
    omega
  have hrest : packet.drop 12 = le32 src ++ (le32 dst ++ packet.drop 20) := by
    rw [drop_of_word32 hsrc, drop_of_word32 hdst]
  have httl1 : UInt8.ofInt ((ttl.toNat : ℤ) - 1) = ttl - 1 := by
    have hsub := Network.ofInt_sub_one httl
    have hle : 1 ≤ ttl := by
      rw [UInt8.le_iff_toNat_le]
      change 1 ≤ ttl.toNat
      omega
    have hone := UInt8.toNat_sub_of_le _ _ hle
    change (ttl - 1).toNat = ttl.toNat - 1 at hone
    rw [← UInt8.toNat_inj, hone]
    omega
  constructor
  · intro h
    exact ⟨(h.bytes 1 (by decide) (by decide) (by decide)).symm.trans rfl, fun i h4 h8 => by
      rw [← h.bytes i (by omega) (by omega) (by omega)]
      interval_cases i <;> rfl⟩
  · rintro ⟨htos, hpart2⟩
    refine ⟨by rw [constructIPPacket_length, hlen], ?_, fun i h8 h10 h11 => ?_⟩
    · rw [httl8, Option.map_some, ← httl1]
      rfl
    · -- the first twelve bytes are built one by one, the addresses and the payload are copied
      by_cases hi : i < 12
      · have htotal := hp.total_bytes
        rw [← hlen] at htotal
        interval_cases i
        · exact hp.version.symm
        · exact htos.symm
        · exact htotal.1.symm
        · exact htotal.2.symm
        · exact (hpart2 4 (by decide) (by decide)).symm
        · exact (hpart2 5 (by decide) (by decide)).symm
        · exact (hpart2 6 (by decide) (by decide)).symm
        · exact (hpart2 7 (by decide) (by decide)).symm
        · exact absurd rfl h8
        · exact hprotocol.symm
        · exact absurd rfl h10
        · exact absurd rfl h11
      · obtain ⟨j, rfl⟩ := Nat.exists_eq_add_of_le (not_lt.mp hi)
        rw [← List.getElem?_drop, ← List.getElem?_drop, hrest]
        rfl

/-- It is the received one if that has a plain header and its frame ends four bytes behind it. -/
lemma passedOn_trailer_iff {frame packet trailer : List UInt8} {eth : EthFrame} {ip : IPFields}
    (hframe : frame.drop 14 = packet ++ trailer) (hp : IsIPv4 packet)
    (heth : parseEth frame = some eth) (hip : parseIP eth.payload = some ip) (httl : ip.ttl ≠ 0) :
    PassedOn packet (constructIPPacket ip.src ip.dst ip.protocol ip.payload (ip.ttl.toNat - 1)) ↔
      plainHeader packet ∧ trailer.length = 4 := by
  have hpayload := payload_of_trailer hframe heth
  by_cases htrailer : trailer.length = 4
  · rw [htrailer, Nat.add_sub_cancel, List.take_left] at hpayload
    rw [hpayload] at hip
    rw [passedOn_iff hp hip httl]
    exact ⟨fun h => ⟨h, htrailer⟩, And.left⟩
  · refine iff_of_false (fun h => ?_) fun h => htrailer h.2
    have hlen := h.length
    have h20 := parseIP_isSome.mp (Option.isSome_iff_exists.mpr ⟨ip, hip⟩)
    have hdrop : ip.payload.length + 20 = eth.payload.length := by
      rw [(parseIP_eq_some hip).2, List.length_drop]
      omega
    have htake : eth.payload.length = packet.length + trailer.length - 4 := by
      rw [hpayload, List.length_take, List.length_append]
      omega
    have := hp.header
    rw [constructIPPacket_length] at hlen
    omega

/-- The TTL that `recvFrame` reads is that of the packet. -/
lemma ttl_of_trailer {frame packet trailer : List UInt8} {eth : EthFrame} {ip : IPFields}
    (hframe : frame.drop 14 = packet ++ trailer) (hp : IsIPv4 packet)
    (heth : parseEth frame = some eth) (hip : parseIP eth.payload = some ip) :
    packet[8]? = some ip.ttl := by
  have h20 := hp.header
  have hpayload := payload_of_trailer hframe heth
  rw [← (parseIP_eq_some hip).1, hpayload, List.getElem?_take_of_lt (by omega),
    List.getElem?_append_left (by omega)]

namespace Node

variable {n : Node} {frame packet trailer : List UInt8} {id : ℕ} {tmp : UInt8} {eth : EthFrame}
  {ip : IPFields} {out : Outcome}

lemma recvFrame_sends (heth : parseEth frame = some eth) (hip : parseIP eth.payload = some ip)
    (hforwards : n.forwards frame id = true) (httl : ip.ttl ≠ 0)
    (hout : n.recvFrame frame id tmp = some out) : n.currDevice.devices ≠ [] ∧
      n.sendIPPacket ip.src ip.dst ip.protocol ip.payload (ip.ttl.toNat - 1) = some out.sent := by
  obtain ⟨hne, hforward⟩ := recvFrame_forward heth hip hforwards hout
  have hzero : ¬(ip.ttl.toNat : ℤ) = 0 := by
    intro h0
    exact httl (UInt8.toNat_inj.mp (Int.natCast_eq_zero.mp h0))
  rw [forward, if_neg hzero] at hforward
  exact ⟨hne, hforward⟩

/-- All frames that a host sends on hold the same packet. -/
lemma sent_passedOn_iff {packet : List UInt8} (hne : n.currDevice.devices ≠ []) {ttl : ℤ}
    (hsend : n.sendIPPacket ip.src ip.dst ip.protocol ip.payload ttl = some out.sent) :
    (∀ p ∈ out.sent, ∃ eth, parseEth p.2 = some eth ∧ PassedOn packet eth.payload) ↔
      PassedOn packet (constructIPPacket ip.src ip.dst ip.protocol ip.payload ttl) := by
  constructor
  · intro h
    obtain ⟨p, hmem⟩ := List.exists_mem_of_ne_nil _ (sendIPPacket_ne_nil hne hsend)
    obtain ⟨destmac, mac, hframe⟩ := sendIPPacket_frames hsend hmem
    obtain ⟨eth, heth, hpassed⟩ := h p hmem
    rw [hframe, parseEth_ipFrame, Option.some.injEq] at heth
    rw [← heth] at hpassed
    exact hpassed
  · intro hpassed p hmem
    obtain ⟨destmac, mac, hframe⟩ := sendIPPacket_frames hsend hmem
    exact ⟨_, by rw [hframe, parseEth_ipFrame], hpassed⟩

lemma exists_of_forwards (hforwards : n.forwards frame id = true) :
    ∃ eth ip, parseEth frame = some eth ∧ parseIP eth.payload = some ip := by
  unfold forwards inTransit at hforwards
  split at hforwards
  · rename_i eth ip d heth hip hd
    rw [frameIP, heth, Option.bind_some] at hip
    exact ⟨eth, ip, heth, hip⟩
  · cases hforwards

/-- Behind the Ethernet header of a frame stands a packet, and any trailer behind that. The packet, if
a host forwards it, is passed on as a router should exactly when its header is plain and the trailer
has the four bytes that `recvFrame` cuts off. -/
theorem forwarding_changes_ttl (hframe : frame.drop 14 = packet ++ trailer) (hp : IsIPv4 packet)
    (httl : packet[8]? ≠ some 0) (hforwards : n.forwards frame id = true)
    (hout : n.recvFrame frame id tmp = some out) :
    (∀ p ∈ out.sent, ∃ eth, parseEth p.2 = some eth ∧ PassedOn packet eth.payload) ↔
      plainHeader packet ∧ trailer.length = 4 := by
  obtain ⟨eth, ip, heth, hip⟩ := exists_of_forwards hforwards
  have hne : ip.ttl ≠ 0 := by
    rintro h0
    exact httl (h0 ▸ ttl_of_trailer hframe hp heth hip)
  obtain ⟨hne', hsend⟩ := recvFrame_sends heth hip hforwards hne hout
  rw [← passedOn_trailer_iff hframe hp heth hip hne]
  exact sent_passedOn_iff hne' hsend

/-- A packet with TTL 10, from 1 to 4. -/
def headerPacket (tos : UInt8) (part2 buf : List UInt8) : List UInt8 :=
  [0x45, tos, 0, UInt8.ofNat (20 + buf.length)] ++ part2 ++ [10, 17, 0xab, 0xcd] ++ le32 1 ++ le32 4 ++
    buf

/-- The packet in a frame, with a trailer. -/
def trailerFrame (packet trailer : List UInt8) : List UInt8 :=
  bcm.bytes ++ ((⟨1, 0, 0, 0, 0, 0⟩ : Mac).bytes ++ (le16 (swap16 L2_IPV4) ++ (packet ++ trailer)))

theorem forwarding_changes_ttl_plain : ∃ out,
    relay.recvFrame (trailerFrame (headerPacket 0 [0, 0, 0, 0] [9]) [0, 0, 0, 0]) 0 0 = some out ∧
      out.sent.length = 2 ∧ ∀ p ∈ out.sent, ∃ eth, parseEth p.2 = some eth ∧
        PassedOn (headerPacket 0 [0, 0, 0, 0] [9]) eth.payload := by
  have hp : IsIPv4 (headerPacket 0 [0, 0, 0, 0] [9]) :=
    ⟨by decide, by decide, 0, 21, by decide, by decide, by decide⟩
  have hplain : plainHeader (headerPacket 0 [0, 0, 0, 0] [9]) :=
    ⟨rfl, fun i h4 h8 => by interval_cases i <;> rfl⟩
  have hout : relay.recvFrame (trailerFrame (headerPacket 0 [0, 0, 0, 0] [9]) [0, 0, 0, 0]) 0 0 =
      some _ := (Option.some_get (by decide +kernel)).symm
  have hframe : (trailerFrame (headerPacket 0 [0, 0, 0, 0] [9]) [0, 0, 0, 0]).drop 14 =
      headerPacket 0 [0, 0, 0, 0] [9] ++ [0, 0, 0, 0] := rfl
  exact ⟨_, hout, by decide +kernel,
    (forwarding_changes_ttl hframe hp (by decide) (by decide +kernel) hout).mpr ⟨hplain, rfl⟩⟩

/-- The first of several fragments, with a type of service, comes out as a whole packet. A packet of 25
bytes in a frame without a trailer comes out without its last four bytes. -/
theorem forwarding_changes_header :
    (∃ out, IsIPv4 (headerPacket 0x10 [0x12, 0x34, 0x20, 0] [9]) ∧
      relay.forwards (trailerFrame (headerPacket 0x10 [0x12, 0x34, 0x20, 0] [9]) [0, 0, 0, 0]) 0 = true ∧
      relay.recvFrame (trailerFrame (headerPacket 0x10 [0x12, 0x34, 0x20, 0] [9]) [0, 0, 0, 0]) 0 0 =
        some out ∧
      out.sent.map (fun p => (parseEth p.2).map (fun eth => eth.payload.take 8)) =
        [some [0x45, 0, 0, 21, 0, 0, 0, 0], some [0x45, 0, 0, 21, 0, 0, 0, 0]] ∧
      ¬∀ p ∈ out.sent, ∃ eth, parseEth p.2 = some eth ∧
        PassedOn (headerPacket 0x10 [0x12, 0x34, 0x20, 0] [9]) eth.payload) ∧
    ∃ out, IsIPv4 (headerPacket 0 [0, 0, 0, 0] [5, 6, 7, 8, 9]) ∧
      relay.forwards (trailerFrame (headerPacket 0 [0, 0, 0, 0] [5, 6, 7, 8, 9]) []) 0 = true ∧
      relay.recvFrame (trailerFrame (headerPacket 0 [0, 0, 0, 0] [5, 6, 7, 8, 9]) []) 0 0 = some out ∧
      out.sent.map (fun p => (parseEth p.2).map (fun eth => eth.payload.length)) =
        [some 21, some 21] ∧
      ¬∀ p ∈ out.sent, ∃ eth, parseEth p.2 = some eth ∧
        PassedOn (headerPacket 0 [0, 0, 0, 0] [5, 6, 7, 8, 9]) eth.payload := by
  constructor
  · have hout : relay.recvFrame (trailerFrame (headerPacket 0x10 [0x12, 0x34, 0x20, 0] [9])
        [0, 0, 0, 0]) 0 0 = some _ := (Option.some_get (by decide +kernel)).symm
    have hsent : ∃ p ∈ (Option.get (relay.recvFrame (trailerFrame (headerPacket 0x10
        [0x12, 0x34, 0x20, 0] [9]) [0, 0, 0, 0]) 0 0) (by decide +kernel)).sent,
        ((parseEth p.2).bind (fun eth => eth.payload[1]?)) = some 0 := by decide +kernel
    refine ⟨_, ⟨by decide, by decide, 0, 21, by decide, by decide, by decide⟩, by decide +kernel, hout,
      by decide +kernel, fun h => ?_⟩
    obtain ⟨p, hp, htos⟩ := hsent
    obtain ⟨eth, heth, hpassed⟩ := h p hp
    rw [heth, Option.bind_some, hpassed.bytes 1 (by decide) (by decide) (by decide)] at htos
    exact absurd htos (by decide)
  · have hout : relay.recvFrame (trailerFrame (headerPacket 0 [0, 0, 0, 0] [5, 6, 7, 8, 9]) []) 0 0 =
        some _ := (Option.some_get (by decide +kernel)).symm
    have hsent : ∃ p ∈ (Option.get (relay.recvFrame (trailerFrame (headerPacket 0
        [0, 0, 0, 0] [5, 6, 7, 8, 9]) []) 0 0) (by decide +kernel)).sent,
        ((parseEth p.2).map (fun eth => eth.payload.length)) = some 21 := by decide +kernel
    refine ⟨_, ⟨by decide, by decide, 0, 25, by decide, by decide, by decide⟩, by decide +kernel, hout,
      by decide +kernel, fun h => ?_⟩
    obtain ⟨p, hp, hlen⟩ := hsent
    obtain ⟨eth, heth, hpassed⟩ := h p hp
    rw [heth, Option.map_some, hpassed.length] at hlen
    exact absurd hlen (by decide)

end Node

end ITCP
