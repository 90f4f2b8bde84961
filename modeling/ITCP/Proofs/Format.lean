import ITCP.Model.Wire

/-!
# What is written is read back

When the reading functions are defined, and what they read from frames, packets and segments that the
constructing functions have built.
-/

namespace ITCP
open Lib

variable {src dest : UInt32} {proto : UInt8} {buf frame packet : List UInt8} {ttl : ℤ} {eth : EthFrame}

lemma macAt_isSome {l : List UInt8} {off : ℕ} : (macAt l off).isSome ↔ off + 6 ≤ l.length := by
  have hlen : (l.drop off).length = l.length - off := List.length_drop
  unfold macAt
  rcases hdrop : l.drop off with _ | ⟨_, _ | ⟨_, _ | ⟨_, _ | ⟨_, _ | ⟨_, _ | ⟨_, _⟩⟩⟩⟩⟩⟩ <;>
    rw [hdrop] at hlen <;> simp only [List.length_cons, List.length_nil] at hlen <;> simp <;> omega

lemma parseEth_isSome : (parseEth frame).isSome ↔ 18 ≤ frame.length := by
  unfold parseEth
  split_ifs with hlt
  · exact iff_of_false Bool.false_ne_true (not_le.mpr hlt)
  · have h12 : 6 + 6 ≤ frame.length := by omega
    obtain ⟨mac, hmac⟩ := Option.isSome_iff_exists.mp (macAt_isSome.mpr h12)
    rw [hmac]
    exact iff_of_true rfl (not_lt.mp hlt)

lemma parseEth_payload (h : parseEth frame = some eth) :
    18 ≤ frame.length ∧ eth.payload = (frame.drop 14).take (frame.length - 18) := by
  have h18 := parseEth_isSome.mp (Option.isSome_iff_exists.mpr ⟨eth, h⟩)
  rw [parseEth, if_neg (not_lt.mpr h18)] at h
  obtain ⟨mac, -, h⟩ := Option.bind_eq_some_iff.mp h
  obtain rfl := Option.some.inj h
  exact ⟨h18, rfl⟩

lemma parseEth_length (h : parseEth frame = some eth) :
    eth.payload.length + 18 = frame.length := by
  obtain ⟨h18, hpayload⟩ := parseEth_payload h
  rw [hpayload, List.length_take, List.length_drop]
  omega

lemma parseIP_isSome : (parseIP packet).isSome ↔ 20 ≤ packet.length := by
  have hdst : (word32 packet 16).isSome ↔ 20 ≤ packet.length := word32_isSome
  unfold parseIP
  by_cases h : 20 ≤ packet.length
  · have h16 : 12 + 4 ≤ packet.length := by omega
    obtain ⟨src, hsrc⟩ := Option.isSome_iff_exists.mp (word32_isSome.mpr h16)
    obtain ⟨dst, hdst⟩ := Option.isSome_iff_exists.mp (hdst.mpr h)
    rw [hsrc, hdst, List.getElem?_eq_getElem (show 8 < packet.length by omega),
      List.getElem?_eq_getElem (show 9 < packet.length by omega)]
    exact iff_of_true rfl h
  · have hnone : word32 packet 16 = none := Option.not_isSome_iff_eq_none.mp fun h' => h (hdst.mp h')
    rw [hnone]
    cases word32 packet 12 <;> exact iff_of_false Bool.false_ne_true h

lemma parseIP_eq_some {ip : IPFields} (h : parseIP packet = some ip) :
    packet[8]? = some ip.ttl ∧ ip.payload = packet.drop 20 := by
  obtain ⟨_, -, h⟩ := Option.bind_eq_some_iff.mp h
  obtain ⟨_, -, h⟩ := Option.bind_eq_some_iff.mp h
  obtain ⟨ttl, httl, h⟩ := Option.bind_eq_some_iff.mp h
  obtain ⟨_, -, h⟩ := Option.bind_eq_some_iff.mp h
  obtain rfl := Option.some.inj h
  exact ⟨httl, rfl⟩

/-- A value that fits into eight bits is the value on the wire. -/
lemma toNat_ofInt {ttl : ℤ} (h0 : 0 ≤ ttl) (h : ttl < 2 ^ 8) :
    ((UInt8.ofInt ttl).toNat : ℤ) = ttl := by
  rw [UInt8.ofInt, Int.emod_eq_of_lt h0 h, UInt8.toNat_ofNat', Nat.mod_eq_of_lt (by omega)]
  exact Int.toNat_of_nonneg h0

@[simp] lemma constructIPPacket_length (src dest : UInt32) (proto : UInt8) (buf : List UInt8)
    (ttl : ℤ) : (constructIPPacket src dest proto buf ttl).length = 20 + buf.length := by
  simp [constructIPPacket, le32]
  omega

lemma parseIP_constructIPPacket (src dest : UInt32) (proto : UInt8) (buf : List UInt8) (ttl : ℤ) :
    parseIP (constructIPPacket src dest proto buf ttl) =
      some ⟨src, dest, UInt8.ofInt ttl, proto, buf⟩ := by
  have hsrc : word32 (constructIPPacket src dest proto buf ttl) 12 = some src :=
    word32_le32 src (le32 dest ++ buf)
  have hdst : word32 (constructIPPacket src dest proto buf ttl) 16 = some dest :=
    word32_le32 dest buf
  unfold parseIP
  rw [hsrc, hdst]
  rfl

lemma parseEth_constructFrame (buf : List UInt8) (ethtype : UInt16) (destmac mac : Mac) :
    parseEth (constructFrame buf ethtype destmac mac) = some ⟨mac, buf⟩ := by
  have hlen : (constructFrame buf ethtype destmac mac).length = buf.length + 18 := by
    simp [constructFrame, Mac.bytes, le16]
  have hmac : macAt (constructFrame buf ethtype destmac mac) 6 = some mac := rfl
  have hdrop : (constructFrame buf ethtype destmac mac).drop 14 = buf ++ [0, 0, 0, 0] := rfl
  unfold parseEth
  rw [hlen, hmac, hdrop, if_neg (by omega), Nat.add_sub_cancel, List.take_left]
  rfl

def ipFrame (src dest : UInt32) (proto : UInt8) (buf : List UInt8) (ttl : ℤ) (destmac mac : Mac) :
    List UInt8 :=
  constructFrame (constructIPPacket src dest proto buf ttl) L2_IPV4 destmac mac

lemma parseEth_ipFrame (src dest : UInt32) (proto : UInt8) (buf : List UInt8) (ttl : ℤ)
    (destmac mac : Mac) : parseEth (ipFrame src dest proto buf ttl destmac mac) =
      some ⟨mac, constructIPPacket src dest proto buf ttl⟩ :=
  parseEth_constructFrame _ _ _ _

lemma Node.ownFrame_ipFrame {n : Node} {d : Device} {id : ℕ} (hd : n.getDevice id = some d)
    (src dest : UInt32) (proto : UInt8) (buf : List UInt8) (ttl : ℤ) (destmac mac : Mac) :
    n.ownFrame (ipFrame src dest proto buf ttl destmac mac) id = (mac == d.Mac) := by
  rw [ownFrame, parseEth_ipFrame, hd]

lemma frameIP_ipFrame (src dest : UInt32) (proto : UInt8) (buf : List UInt8) (ttl : ℤ)
    (destmac mac : Mac) : frameIP (ipFrame src dest proto buf ttl destmac mac) =
      some ⟨src, dest, UInt8.ofInt ttl, proto, buf⟩ := by
  rw [frameIP, parseEth_ipFrame, Option.bind_some, parseIP_constructIPPacket]

lemma frameTTL_ipFrame (src dest : UInt32) (proto : UInt8) (buf : List UInt8) (ttl : ℤ)
    (destmac mac : Mac) : frameTTL (ipFrame src dest proto buf ttl destmac mac) =
      some (UInt8.ofInt ttl) := by
  rw [frameTTL, frameIP_ipFrame, Option.map_some]

lemma totalLength_ipFrame {destmac mac : Mac} (h : 20 + buf.length < 2 ^ 16) :
    totalLength (ipFrame src dest proto buf ttl destmac mac) = some (20 + buf.length) := by
  have hbytes : totalLength (ipFrame src dest proto buf ttl destmac mac) =
      some ((UInt8.ofNat ((20 + buf.length) / 2 ^ 8)).toNat * 2 ^ 8 +
        (UInt8.ofNat (20 + buf.length)).toNat) := rfl
  rw [hbytes, UInt8.toNat_ofNat', UInt8.toNat_ofNat']
  congr 1
  omega

@[simp] lemma Segment.encode_length (p : Segment) (size : UInt16) (other : UInt32) :
    (p.encode size other).length = 20 + p.payload.length := by
  simp [Segment.encode, le16, le32]
  omega

lemma rawSegment_constructIPPacket (p : Segment) (size : UInt16) (other : UInt32) (ttl : ℤ) :
    rawSegment (constructIPPacket p.info.srcIP p.info.dstIP proto (p.encode size other) ttl) =
      some { p with seq := swap32 p.seq, ack := swap32 p.ack } := by
  let tail7 := le16 size ++ (le32 other ++ p.payload)
  let tail6 := le16 p.flag ++ tail7
  let tail5 := le32 (swap32 p.ack) ++ tail6
  let tail4 := le32 (swap32 p.seq) ++ tail5
  let tail3 := le16 p.info.dstPort ++ tail4
  generalize hpacket : constructIPPacket p.info.srcIP p.info.dstIP proto (p.encode size other) ttl =
    packet
  have hlen : packet.length = 40 + p.payload.length := by
    rw [← hpacket, constructIPPacket_length, Segment.encode_length]
    omega
  have hsrc : word32 packet 12 = some p.info.srcIP :=
    hpacket ▸ word32_le32 p.info.srcIP (le32 p.info.dstIP ++ p.encode size other)
  have hdst : word32 packet 16 = some p.info.dstIP :=
    hpacket ▸ word32_le32 p.info.dstIP (p.encode size other)
  have hsrcPort : word16 packet 20 = some p.info.srcPort := hpacket ▸ word16_le16 _ tail3
  have hdstPort : word16 packet 22 = some p.info.dstPort := hpacket ▸ word16_le16 _ tail4
  have hseq : word32 packet 24 = some (swap32 p.seq) := hpacket ▸ word32_le32 _ tail5
  have hack : word32 packet 28 = some (swap32 p.ack) := hpacket ▸ word32_le32 _ tail6
  have hflag : word16 packet 32 = some p.flag := hpacket ▸ word16_le16 _ tail7
  have hpayload : packet.drop 40 = p.payload := hpacket ▸ rfl
  unfold rawSegment
  rw [hsrc, hdst, hsrcPort, hdstPort, hseq, hack, hflag, hpayload, hlen]
  exact if_neg (by omega)

/-- A segment sent by `sendTCPPacket` is read back by `readIPPacket`. -/
theorem decode_constructIPPacket (p : Segment) (size : UInt16) (other : UInt32) (ttl : ℤ) :
    Segment.decode (constructIPPacket p.info.srcIP p.info.dstIP proto (p.encode size other) ttl) =
      some p := by
  rw [Segment.decode, rawSegment_constructIPPacket, Option.map_some, swap32_swap32, swap32_swap32]

end ITCP
