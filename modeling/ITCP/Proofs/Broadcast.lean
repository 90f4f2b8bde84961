import ITCP.Model.Network
import ITCP.Proofs.Format

/-!
# What a host does with a myArp frame

`sendArp` and `sendArpBroadCast` send one frame on each device. A host drops a myArp frame, or it
learns a route unless it knows one that is no worse, and re-broadcasts the frame.
-/

namespace ITCP
open Lib

def arpFrame (src : UInt32) (ttl : ℤ) (tmp : UInt8) (mac : Mac) : List UInt8 :=
  ipFrame src 0xffffffff L3_MYARP [tmp] ttl bcm mac

lemma parseEth_arpFrame (src : UInt32) (ttl : ℤ) (tmp : UInt8) (mac : Mac) :
    parseEth (arpFrame src ttl tmp mac) =
      some ⟨mac, constructIPPacket src 0xffffffff L3_MYARP [tmp] ttl⟩ :=
  parseEth_ipFrame _ _ _ _ _ _ _

lemma frameIP_arpFrame (src : UInt32) (ttl : ℤ) (tmp : UInt8) (mac : Mac) :
    frameIP (arpFrame src ttl tmp mac) =
      some ⟨src, 0xffffffff, UInt8.ofInt ttl, L3_MYARP, [tmp]⟩ :=
  frameIP_ipFrame _ _ _ _ _ _ _

@[simp] lemma frameTTL_arpFrame (src : UInt32) (ttl : ℤ) (tmp : UInt8) (mac : Mac) :
    frameTTL (arpFrame src ttl tmp mac) = some (UInt8.ofInt ttl) :=
  frameTTL_ipFrame _ _ _ _ _ _ _

lemma arpFrame_inj {src src' : UInt32} {ttl ttl' : ℤ} {tmp tmp' : UInt8} {mac mac' : Mac}
    (h : arpFrame src ttl tmp mac = arpFrame src' ttl' tmp' mac') :
    src = src' ∧ UInt8.ofInt ttl = UInt8.ofInt ttl' ∧ mac = mac' := by
  have hip := frameIP_arpFrame src ttl tmp mac
  have heth := parseEth_arpFrame src ttl tmp mac
  rw [h, frameIP_arpFrame, Option.some.injEq, IPFields.mk.injEq] at hip
  rw [h, parseEth_arpFrame, Option.some.injEq, EthFrame.mk.injEq] at heth
  exact ⟨hip.1.symm, hip.2.2.1.symm, heth.1.symm⟩

/-- The better of two routes; the old one when neither is. -/
def RtValue.improved (old : Option RtValue) (new : RtValue) : RtValue :=
  match old with
  | none => new
  | some v => if v.ttl < new.ttl then new else v

namespace RtValue

variable {old : Option RtValue} {new v : RtValue}

lemma improved_eq_or (old : Option RtValue) (new : RtValue) :
    improved old new = new ∨ old = some (improved old new) := by
  cases old with
  | none => exact Or.inl rfl
  | some v =>
    simp only [improved]
    split
    · exact Or.inl rfl
    · exact Or.inr rfl

lemma ttl_le_improved (old : Option RtValue) (new : RtValue) : new.ttl ≤ (improved old new).ttl := by
  cases old with
  | none => exact le_refl _
  | some v =>
    simp only [improved]
    split
    · exact le_refl _
    · omega

lemma le_improved (h : old = some v) : v.ttl ≤ (improved old new).ttl := by
  subst h
  simp only [improved]
  split
  · omega
  · exact le_refl _

/-- The old route stays, or gives way to a better one. -/
lemma improved_same_or (old : Option RtValue) (new : RtValue) :
    old = some (improved old new) ∨ ∀ v, old = some v → v.ttl < (improved old new).ttl := by
  cases old with
  | none => exact Or.inr nofun
  | some v =>
    simp only [improved]
    split_ifs with hlt
    · refine Or.inr fun v' hv => ?_
      rwa [← Option.some.inj hv]
    · exact Or.inl rfl

end RtValue

namespace Node

variable {n : Node}

/-- A myArp packet as it goes out on every device. -/
def arpFrames (n : Node) (src : UInt32) (ttl : ℤ) (tmp : UInt8) : List (ℕ × List UInt8) :=
  n.currDevice.devices.map (fun d => (d.ID, arpFrame src ttl tmp d.Mac))

lemma sendArpBroadCast_eq (n : Node) (src : UInt32) (ttl : ℤ) (tmp : UInt8) :
    n.sendArpBroadCast src ttl tmp = some (n.arpFrames src ttl tmp) := by
  have hroute : n.lookForRoute 0xffffffff fullMask =
      some (n.currDevice.devices.map (fun d => ⟨bcm, d⟩)) := broadcastHops_eq n
  unfold sendArpBroadCast sendIPPacket
  rw [hroute]
  change List.mapM _ _ = _
  rw [List.mapM_map]
  refine mapM_eq_some_map fun d hd => ?_
  rw [Function.comp_apply, sendFrame, getDevice_of_mem hd, Option.map_some]
  rfl

lemma sendArp_eq (n : Node) (tmp : UInt8) :
    n.sendArp tmp = some (n.currDevice.devices.flatMap (fun d => n.arpFrames d.IP 8 tmp)) := by
  have hsent : n.currDevice.devices.mapM
      (fun d => n.sendIPPacket d.IP 0xffffffff L3_MYARP [tmp] 8) =
        some (n.currDevice.devices.map (fun d => n.arpFrames d.IP 8 tmp)) :=
    mapM_eq_some_map fun d _ => sendArpBroadCast_eq n d.IP 8 tmp
  unfold sendArp
  rw [hsent, List.flatMap_def]
  rfl

/-- A packet from somebody else is re-broadcast, whether or not it improves the table. -/
lemma recvArp_eq {d : Device} {id : ℕ} {src : UInt32} (hd : n.getDevice id = some d)
    (howns : n.owns src = false) (mask : UInt32) (mac : Mac) (ttl : ℤ) (tmp : UInt8) :
    ∃ n', n.recvArp src mask id mac ttl tmp = some (n', n.arpFrames src (ttl - 1) tmp) ∧
      n'.currDevice = n.currDevice ∧ ∀ k, n'.routeTable.find? k = if k = ⟨src, mask⟩
        then some (RtValue.improved (n.routeTable.find? ⟨src, mask⟩) ⟨d.ID, mac, ttl⟩)
        else n.routeTable.find? k := by
  have hset := setRoutingTable_of_mem (n := n) (List.mem_of_getElem? hd) src mask mac ttl
  set learnt := (n.setRoutingTable src mask mac d.Name ttl).2 with hlearnt
  obtain ⟨n', hn', hdev, hfind⟩ : ∃ n', (if n.myArpLookForRoute src mask = [] then learnt
      else (n.myArpLookForRoute src mask).foldl (fun n t => if t < ttl
        then (n.setRoutingTable src mask mac d.Name ttl).2 else n) n) = n' ∧
      n'.currDevice = n.currDevice ∧ ∀ k, n'.routeTable.find? k = if k = ⟨src, mask⟩
        then some (RtValue.improved (n.routeTable.find? ⟨src, mask⟩) ⟨d.ID, mac, ttl⟩)
        else n.routeTable.find? k := by
    rw [myArpLookForRoute_eq]
    cases hold : n.routeTable.find? ⟨src, mask⟩ with
    | none => exact ⟨learnt, rfl, hset⟩
    | some v =>
      by_cases hlt : v.ttl < ttl
      · refine ⟨learnt, if_pos hlt, ?_⟩
        simpa only [RtValue.improved, if_pos hlt] using hset
      · refine ⟨n, if_neg hlt, rfl, fun k => ?_⟩
        simp only [RtValue.improved, if_neg hlt]
        split
        · rename_i hk
          rw [hk, hold]
        · rfl
  refine ⟨n', ?_, hdev, hfind⟩
  unfold recvArp
  rw [howns, if_neg Bool.false_ne_true, hd]
  change ((_ : Node).sendArpBroadCast src (ttl - 1) tmp).bind _ = _
  rw [sendArpBroadCast_eq, Option.bind_some, hn', arpFrames, hdev]
  rfl

lemma rebroadcasts_arpFrame {d : Device} {id : ℕ} (hd : n.getDevice id = some d) (src : UInt32)
    (ttl : ℤ) (tmp : UInt8) (mac : Mac) :
    n.rebroadcasts (arpFrame src ttl tmp mac) id =
      (mac != d.Mac && d.IP != 0xffffffff && !n.owns src) := by
  unfold rebroadcasts inTransit
  rw [parseEth_arpFrame, frameIP_arpFrame, hd]
  simp

/-- A myArp frame is dropped, or learnt from and re-broadcast. -/
lemma recvFrame_arpFrame {src : UInt32} {ttl : ℤ} {tmp tmp' : UInt8} {mac : Mac} {id : ℕ}
    {out : Outcome} (h : n.recvFrame (arpFrame src ttl tmp mac) id tmp' = some out) :
    (n.rebroadcasts (arpFrame src ttl tmp mac) id = false ∧ out.node = n ∧ out.sent = []) ∨
      (n.rebroadcasts (arpFrame src ttl tmp mac) id = true ∧ n.owns src = false ∧
        n.currDevice.devices ≠ [] ∧ out.node.currDevice = n.currDevice ∧
        out.sent = n.arpFrames src ((UInt8.ofInt ttl).toNat - 1) tmp' ∧
        ∃ j, ∀ k, out.node.routeTable.find? k = if k = ⟨src, fullMask⟩
          then some (RtValue.improved (n.routeTable.find? ⟨src, fullMask⟩)
            ⟨j, mac, (UInt8.ofInt ttl).toNat⟩)
          else n.routeTable.find? k) := by
  have heth := parseEth_arpFrame src ttl tmp mac
  have hip := parseIP_constructIPPacket src 0xffffffff L3_MYARP [tmp] ttl
  obtain ⟨d, hd⟩ := getDevice_of_recvFrame h
  rw [rebroadcasts_arpFrame hd]
  by_cases hmac : mac = d.Mac
  · rw [recvFrame_own heth hd hmac, Option.some.injEq] at h
    subst h
    exact Or.inl ⟨by simp [hmac], rfl, rfl⟩
  rw [recvFrame_eq heth hip hd hmac] at h
  by_cases hdst : d.IP = 0xffffffff
  · rw [if_pos hdst, Option.some.injEq] at h
    subst h
    exact Or.inl ⟨by simp [hdst], rfl, rfl⟩
  rw [if_neg hdst, if_pos rfl] at h
  obtain ⟨r, hrecv, rfl⟩ := Option.map_eq_some_iff.mp h
  cases howns : n.owns src with
  | true =>
    rw [recvArp, if_pos howns, Option.some.injEq] at hrecv
    subst hrecv
    exact Or.inl ⟨by simp, rfl, rfl⟩
  | false =>
    obtain ⟨n', hn', hdev, hfind⟩ :=
      recvArp_eq hd howns fullMask mac ((UInt8.ofInt ttl).toNat : ℤ) tmp'
    rw [hn', Option.some.injEq] at hrecv
    subst hrecv
    have hne : n.currDevice.devices ≠ [] := List.ne_nil_of_mem (List.mem_of_getElem? hd)
    exact Or.inr ⟨by simp [hmac, hdst], rfl, hne, hdev, rfl, d.ID, hfind⟩

lemma rebroadcasts_arpFrame_iff {id : ℕ} (src : UInt32) (ttl : ℤ) (tmp : UInt8) (mac : Mac) :
    n.rebroadcasts (arpFrame src ttl tmp mac) id = true ↔ ∃ d, n.getDevice id = some d ∧
      mac ≠ d.Mac ∧ d.IP ≠ 0xffffffff ∧ n.owns src = false := by
  cases hd : n.getDevice id with
  | none =>
    refine iff_of_false ?_ (fun ⟨d, h, _⟩ => by cases h)
    unfold rebroadcasts inTransit
    rw [hd, parseEth_arpFrame, frameIP_arpFrame]
    exact Bool.false_ne_true
  | some d => simp [rebroadcasts_arpFrame hd, and_assoc]

/-- A frame that gets that far is learnt under the device that received it, and sent on. -/
lemma recvFrame_rebroadcasts {src : UInt32} {ttl : ℤ} {tmp : UInt8} {mac : Mac} {id : ℕ}
    (hreb : n.rebroadcasts (arpFrame src ttl tmp mac) id = true) (tmp' : UInt8) :
    ∃ n', n.recvFrame (arpFrame src ttl tmp mac) id tmp' =
        some ⟨n', n.arpFrames src ((UInt8.ofInt ttl).toNat - 1) tmp', none⟩ ∧
      n'.currDevice = n.currDevice ∧
      ∀ k, n'.routeTable.find? k = if k = ⟨src, fullMask⟩
        then some (RtValue.improved (n.routeTable.find? ⟨src, fullMask⟩)
          ⟨id, mac, (UInt8.ofInt ttl).toNat⟩)
        else n.routeTable.find? k := by
  obtain ⟨d, hd, hmac, hip, howns⟩ := (rebroadcasts_arpFrame_iff _ _ _ _).mp hreb
  obtain ⟨n', hn', hdev, hfind⟩ :=
    recvArp_eq hd howns fullMask mac ((UInt8.ofInt ttl).toNat : ℤ) tmp'
  refine ⟨n', ?_, hdev, getDevice_ID hd ▸ hfind⟩
  rw [recvFrame_eq (parseEth_arpFrame src ttl tmp mac)
    (parseIP_constructIPPacket src 0xffffffff L3_MYARP [tmp] ttl) hd hmac, if_neg hip, if_pos rfl,
    hn', Option.map_some]

end Node

end ITCP
