import ITCP.Lib.Walk
import ITCP.Model.Traffic
import ITCP.Proofs.Flood
import ITCP.Proofs.RoundTrip

/-!
# Forwarding

A host that forwards a packet sends it on with a TTL that is less by one, on the device of its route
or on all its devices. So what derives from one packet is bounded by its TTL, whatever the tables
say and however they change.
-/

namespace ITCP
open Lib

namespace Node

variable {n : Node} {src dest : UInt32} {proto : UInt8} {buf : List UInt8} {ttl : ℤ}

lemma recvArp_currDevice {n' : Node} {mask : UInt32} {id : ℕ} {mac : Mac} {tmp : UInt8}
    {sent : List (ℕ × List UInt8)} (h : n.recvArp src mask id mac ttl tmp = some (n', sent)) :
    n'.currDevice = n.currDevice := by
  cases howns : n.owns src with
  | true =>
    rw [recvArp, howns, if_pos rfl] at h
    cases h
    rfl
  | false =>
    obtain ⟨d, hd⟩ : ∃ d, n.getDevice id = some d := by
      rw [recvArp, howns, if_neg Bool.false_ne_true] at h
      obtain ⟨d, hd, -⟩ := Option.bind_eq_some_iff.mp h
      exact ⟨d, hd⟩
    obtain ⟨n₁, hn₁, hdev, -⟩ := recvArp_eq hd howns mask mac ttl tmp
    rw [hn₁] at h
    cases h
    exact hdev

/-- What a host does with any frame: its devices stay, and it sends nothing, or the frame holds a
myArp packet, or it forwards the packet of the frame, whose TTL is not 0. -/
lemma recvFrame_cases {frame : List UInt8} {id : ℕ} {tmp : UInt8} {out : Outcome}
    (h : n.recvFrame frame id tmp = some out) : out.node.currDevice = n.currDevice ∧
      (out.sent = [] ∨ isMyArp frame ∨ ∃ ip, frameIP frame = some ip ∧ ip.protocol ≠ L3_MYARP ∧
        ip.ttl ≠ 0 ∧
        n.sendIPPacket ip.src ip.dst ip.protocol ip.payload (ip.ttl.toNat - 1) = some out.sent) := by
  obtain ⟨hn, hsent⟩ | ⟨ip, hip, ⟨hproto, mac, hrecv⟩ | ⟨hproto, hn, hforward⟩⟩ := recvFrame_outcome h
  · exact ⟨congrArg currDevice hn, Or.inl hsent⟩
  · refine ⟨recvArp_currDevice hrecv, Or.inr (Or.inl ?_)⟩
    rw [isMyArp, hip, Option.any_some, hproto, beq_self_eq_true]
  · refine ⟨congrArg currDevice hn, ?_⟩
    unfold forward at hforward
    split_ifs at hforward with hzero
    · exact Or.inl (Option.some.inj hforward).symm
    · refine Or.inr (Or.inr ⟨ip, hip, hproto, fun h0 => hzero ?_, hforward⟩)
      rw [h0]
      rfl

/-- A packet leaves by all devices or by a single one. -/
lemma lookForRoute_devices {mask : UInt32} {hops : List NextHop}
    (h : n.lookForRoute dest mask = some hops) :
    hops.map NextHop.srcDevice = n.currDevice.devices ∨
      ∃ d ∈ n.currDevice.devices, hops.map NextHop.srcDevice = [d] := by
  obtain rfl | ⟨d, hd, mac, rfl⟩ := lookForRoute_cases h
  · left
    rw [List.map_map]
    exact List.map_id _
  · exact Or.inr ⟨d, hd, rfl⟩

end Node

namespace Network

variable {N : Type} {wire : N → ℕ → List (N × ℕ)} {n : Node} {src dest : UInt32} {proto : UInt8}
  {buf : List UInt8} {ttl : ℤ}

lemma sendIPPacket_devices {sent : List (ℕ × List UInt8)}
    (h : n.sendIPPacket src dest proto buf ttl = some sent) :
    sent.map Prod.fst = n.currDevice.devices.map Device.ID ∨
      ∃ d ∈ n.currDevice.devices, sent.map Prod.fst = [d.ID] := by
  obtain ⟨hops, hroute, h⟩ := Option.bind_eq_some_iff.mp h
  have hids : sent.map Prod.fst = (hops.map NextHop.srcDevice).map Device.ID := by
    rw [List.map_map]
    refine Node.map_eq_of_mapM h fun hop p hp => ?_
    obtain ⟨device, -, rfl⟩ := Option.map_eq_some_iff.mp hp
    rfl
  rcases Node.lookForRoute_devices hroute with hall | ⟨d, hd, hone⟩
  · exact Or.inl (hall ▸ hids)
  · exact Or.inr ⟨d, hd, by rw [hids, hone, List.map_singleton]⟩

lemma frameReach_ipFrame (D K : ℕ) (destmac mac : Mac) :
    frameReach D K (ipFrame src dest proto buf ttl destmac mac) =
      reach D K (UInt8.ofInt ttl).toNat := by
  rw [frameReach, frameTTL_ipFrame]

lemma sum_sendIPPacket {D K : ℕ} {i : N} {sent : List (ℕ × List UInt8)}
    (hK : fanOut wire i n ≤ K) (h : n.sendIPPacket src dest proto buf ttl = some sent) :
    (sent.map (fun p => (wire i p.1).length * frameReach D K p.2)).sum ≤
      K * reach D K (UInt8.ofInt ttl).toNat := by
  have hreach : sent.map (fun p => (wire i p.1).length * frameReach D K p.2) =
      (sent.map Prod.fst).map (fun d => (wire i d).length * reach D K (UInt8.ofInt ttl).toNat) := by
    rw [List.map_map]
    refine List.map_congr_left fun p hp => ?_
    obtain ⟨destmac, mac, hframe⟩ := Node.sendIPPacket_frames h hp
    rw [hframe, frameReach_ipFrame]
    rfl
  rw [hreach, List.sum_map_mul_right]
  refine Nat.mul_le_mul_right _ (le_trans ?_ hK)
  rcases sendIPPacket_devices h with hall | ⟨d, hd, hone⟩
  · rw [hall, List.map_map]
    exact le_refl _
  · rw [hone, List.map_singleton, List.sum_singleton]
    exact List.single_le_sum (fun _ _ => Nat.zero_le _) _ (List.mem_map_of_mem hd)

/-- A packet costs no more than a broadcast with the same TTL. -/
lemma cost_sendIPPacket {D K : ℕ} {i : N} {sent : List (ℕ × List UInt8)}
    (hD : n.currDevice.devices.length ≤ D) (hK : fanOut wire i n ≤ K)
    (h : n.sendIPPacket src dest proto buf ttl = some sent) :
    cost wire D K i sent ≤ D + K * reach D K (UInt8.ofInt ttl).toNat := by
  refine Nat.add_le_add (le_trans ?_ hD) (sum_sendIPPacket hK h)
  rw [← List.length_map (f := Prod.fst)]
  rcases sendIPPacket_devices h with hall | ⟨d, hd, hone⟩
  · rw [hall, List.length_map]
  · rw [hone, List.length_singleton]
    exact List.length_pos_of_mem hd

end Network

/-- The TTL of the frame is one less than that of the frame that caused it. -/
def Cast.OneLess (c : Cast) : Prop :=
  ∀ cause ∈ c.cause, ∃ a b, frameTTL cause = some a ∧ frameTTL c.frame = some b ∧
    a.toNat = b.toNat + 1

def Cast.ttl (c : Cast) : ℕ := ((frameTTL c.frame).getD 0).toNat

namespace Traffic
open Network

variable {N : Type} {wire : N → ℕ → List (N × ℕ)} {s t : Network N} {e : TrafficEvent N}

/-- What a step does: a host sends frames of its own, a frame arrives from outside, or a frame in
flight is received. -/
lemma step_cases [DecidableEq N] (h : step wire s e = some t) :
    (∃ i sent, t = { s with
      inFlight := s.inFlight ++ transits wire s.calls i sent
      sent := s.sent ++ sent.map (fun p => ⟨s.calls, none, p.2⟩)
      calls := s.calls + 1 }) ∨
    (∃ i d frame, t = { s with
      inFlight := s.inFlight ++ [⟨s.calls, i, d, frame⟩], calls := s.calls + 1 }) ∨
    ∃ k a tmp out, s.inFlight[k]? = some a ∧
      (s.host a.host).recvFrame a.frame a.device tmp = some out ∧
      t = { s with
        host := Function.update s.host a.host out.node
        inFlight := s.inFlight.eraseIdx k ++ transits wire a.call a.host out.sent
        sent := s.sent ++ out.sent.map (fun p => ⟨a.call, some a.frame, p.2⟩) } := by
  cases e with
  | network e =>
    cases e with
    | sendArp i tmp =>
      obtain ⟨sent, -, rfl⟩ := step_sendArp_eq_some.mp h
      exact Or.inl ⟨i, sent, rfl⟩
    | deliver k tmp =>
      obtain ⟨a, ha, out, hout, rfl⟩ := step_deliver_eq_some.mp h
      exact Or.inr (Or.inr ⟨k, a, tmp, out, ha, hout, rfl⟩)
  | send i src dest proto buf ttl =>
    obtain ⟨sent, -, h⟩ := Option.bind_eq_some_iff.mp h
    exact Or.inl ⟨i, sent, (Option.some.inj h).symm⟩
  | arrive i device frame => exact Or.inr (Or.inl ⟨i, device, frame, (Option.some.inj h).symm⟩)

/-- The devices never change, the calls are numbered in order, and a frame that was not caused by a
myArp frame has a TTL that is one less than that of its cause. -/
structure Sound (host : N → Node) (s : Network N) : Prop where
  currDevice : ∀ i, (s.host i).currDevice = (host i).currDevice
  inFlight : ∀ a ∈ s.inFlight, a.call < s.calls
  sent : ∀ c ∈ s.sent, c.call < s.calls
  oneLess : ∀ c ∈ s.sent, (∀ frame ∈ c.cause, isMyArp frame = false) → c.OneLess

lemma sound_start (host : N → Node) : Sound host (start host) where
  currDevice _ := rfl
  inFlight _ ha := absurd ha List.not_mem_nil
  sent _ hc := absurd hc List.not_mem_nil
  oneLess _ hc := absurd hc List.not_mem_nil

/-- A frame that a host forwards: it is not a myArp frame, and neither is what is sent for it. -/
lemma forwarded_frame {n : Node} {frame : List UInt8} {id : ℕ} {tmp : UInt8} {out : Node.Outcome}
    (h : n.recvFrame frame id tmp = some out) (harp : isMyArp frame = false)
    {p : ℕ × List UInt8} (hp : p ∈ out.sent) : isMyArp p.2 = false ∧
      ∃ a b, frameTTL frame = some a ∧ frameTTL p.2 = some b ∧ a.toNat = b.toNat + 1 := by
  rcases (Node.recvFrame_cases h).2 with hnil | harp' | ⟨ip, hip, hproto, hne, hsend⟩
  · rw [hnil] at hp
    cases hp
  · rw [harp] at harp'
    cases harp'
  · obtain ⟨destmac, mac, hframe⟩ := Node.sendIPPacket_frames hsend hp
    refine ⟨?_, ip.ttl, UInt8.ofInt (ip.ttl.toNat - 1), ?_, ?_, (ofInt_sub_one hne).symm⟩
    · rw [hframe, isMyArp, frameIP_ipFrame, Option.any_some]
      exact beq_eq_false_iff_ne.mpr hproto
    · rw [frameTTL, hip, Option.map_some]
    · rw [hframe, frameTTL_ipFrame]

lemma Sound.step [DecidableEq N] {host : N → Node} (hs : Sound host s) (h : step wire s e = some t) :
    Sound host t := by
  obtain ⟨i, sent, rfl⟩ | ⟨i, d, frame, rfl⟩ | ⟨k, a, tmp, out, ha, hout, rfl⟩ := step_cases h
  · refine ⟨hs.currDevice, fun a ha => ?_, fun c hc => ?_, fun c hc harp => ?_⟩
    · rcases List.mem_append.mp ha with ha | ha
      · exact Nat.lt_succ_of_lt (hs.inFlight a ha)
      · obtain ⟨-, -, -, hcall⟩ := mem_transits ha
        exact hcall ▸ Nat.lt_succ_self _
    · rcases List.mem_append.mp hc with hc | hc
      · exact Nat.lt_succ_of_lt (hs.sent c hc)
      · obtain ⟨p, -, rfl⟩ := List.mem_map.mp hc
        exact Nat.lt_succ_self _
    · rcases List.mem_append.mp hc with hc | hc
      · exact hs.oneLess c hc harp
      · obtain ⟨p, -, rfl⟩ := List.mem_map.mp hc
        exact nofun
  · refine ⟨hs.currDevice, fun a ha => ?_, fun c hc => Nat.lt_succ_of_lt (hs.sent c hc), hs.oneLess⟩
    rcases List.mem_append.mp ha with ha | ha
    · exact Nat.lt_succ_of_lt (hs.inFlight a ha)
    · rw [List.mem_singleton.mp ha]
      exact Nat.lt_succ_self _
  · have hcall := hs.inFlight a (List.mem_of_getElem? ha)
    refine ⟨fun i => ?_, fun b hb => ?_, fun c hc => ?_, fun c hc harp => ?_⟩
    · by_cases hi : i = a.host
      · subst hi
        dsimp only
        rw [Function.update_self, (Node.recvFrame_cases hout).1, hs.currDevice]
      · dsimp only
        rw [Function.update_of_ne hi, hs.currDevice]
    · rcases List.mem_append.mp hb with hb | hb
      · exact hs.inFlight b (List.mem_of_mem_eraseIdx hb)
      · obtain ⟨-, -, -, hb⟩ := mem_transits hb
        exact hb ▸ hcall
    · rcases List.mem_append.mp hc with hc | hc
      · exact hs.sent c hc
      · obtain ⟨p, -, rfl⟩ := List.mem_map.mp hc
        exact hcall
    · rcases List.mem_append.mp hc with hc | hc
      · exact hs.oneLess c hc harp
      · obtain ⟨p, hp, rfl⟩ := List.mem_map.mp hc
        intro cause hcause
        obtain rfl := Option.some.inj hcause
        exact (forwarded_frame hout (harp a.frame rfl) hp).2

/-- What derives from a packet that was injected as number `call` with the given TTL. -/
structure Alive (D K call : ℕ) (ttl : UInt8) (s : Network N) : Prop where
  numbered : call < s.calls
  inFlight : ∀ a ∈ s.inFlight, a.call = call →
    isMyArp a.frame = false ∧ ∃ b, frameTTL a.frame = some b ∧ b.toNat ≤ ttl.toNat
  sent : ∀ c ∈ s.sent, c.call = call → ∀ frame ∈ c.cause,
    isMyArp frame = false ∧ ∃ b, frameTTL frame = some b ∧ b.toNat ≤ ttl.toNat
  budget : budget D K s call ≤ reach D K (ttl.toNat + 1)

/-- What is numbered otherwise plays no part. -/
lemma Alive.send {D K call : ℕ} {ttl : UInt8} (hs : Alive D K call ttl s) (i : N)
    (sent : List (ℕ × List UInt8)) : Alive D K call ttl { s with
      inFlight := s.inFlight ++ transits wire s.calls i sent
      sent := s.sent ++ sent.map (fun p => ⟨s.calls, none, p.2⟩)
      calls := s.calls + 1 } := by
  have hne : s.calls ≠ call := Nat.ne_of_gt hs.numbered
  refine ⟨Nat.lt_succ_of_lt hs.numbered, fun a ha hcall => ?_, fun c hc hcall => ?_, ?_⟩
  · rcases List.mem_append.mp ha with ha | ha
    · exact hs.inFlight a ha hcall
    · obtain ⟨-, -, -, ha⟩ := mem_transits ha
      exact absurd (ha.symm.trans hcall) hne
  · rcases List.mem_append.mp hc with hc | hc
    · exact hs.sent c hc hcall
    · obtain ⟨p, -, rfl⟩ := List.mem_map.mp hc
      exact nofun
  · rw [budget_send, if_neg hne]
    exact hs.budget

lemma Alive.arrive {D K call : ℕ} {ttl : UInt8} (hs : Alive D K call ttl s) (i : N) (d : ℕ)
    (frame : List UInt8) : Alive D K call ttl { s with
      inFlight := s.inFlight ++ [⟨s.calls, i, d, frame⟩], calls := s.calls + 1 } := by
  have hne : s.calls ≠ call := Nat.ne_of_gt hs.numbered
  refine ⟨Nat.lt_succ_of_lt hs.numbered, fun a ha hcall => ?_, hs.sent, ?_⟩
  · rcases List.mem_append.mp ha with ha | ha
    · exact hs.inFlight a ha hcall
    · rw [List.mem_singleton.mp ha] at hcall
      exact absurd hcall hne
  · have hbudget := hs.budget
    simp only [Network.budget] at hbudget ⊢
    rw [List.map_append, List.sum_append, List.map_singleton, List.sum_singleton, if_neg hne]
    exact hbudget

/-- The frames that a host sends for one that it receives have been set aside. -/
lemma cost_recvFrame {D K : ℕ} {a : Transit N} {n : Node} {tmp : UInt8} {out : Node.Outcome}
    (hD : n.currDevice.devices.length ≤ D) (hK : fanOut wire a.host n ≤ K)
    (harp : isMyArp a.frame = false) (h : n.recvFrame a.frame a.device tmp = some out) :
    cost wire D K a.host out.sent ≤ frameReach D K a.frame := by
  rcases (Node.recvFrame_cases h).2 with hnil | harp' | ⟨ip, hip, -, hne, hsend⟩
  · rw [hnil]
    exact Nat.zero_le _
  · rw [harp] at harp'
    cases harp'
  · have hreach : frameReach D K a.frame = reach D K ip.ttl.toNat := by
      rw [frameReach, frameTTL, hip, Option.map_some]
    have hcost := cost_sendIPPacket hD hK hsend
    rw [hreach, ← ofInt_sub_one hne]
    exact hcost

lemma Alive.receive [DecidableEq N] {D K call k : ℕ} {ttl tmp : UInt8} {a : Transit N}
    {out : Node.Outcome}
    (hs : Alive D K call ttl s) (hD : ∀ i, (s.host i).currDevice.devices.length ≤ D)
    (hK : ∀ i, fanOut wire i (s.host i) ≤ K) (ha : s.inFlight[k]? = some a)
    (hout : (s.host a.host).recvFrame a.frame a.device tmp = some out) : Alive D K call ttl { s with
      host := Function.update s.host a.host out.node
      inFlight := s.inFlight.eraseIdx k ++ transits wire a.call a.host out.sent
      sent := s.sent ++ out.sent.map (fun p => ⟨a.call, some a.frame, p.2⟩) } := by
  have hmem := List.mem_of_getElem? ha
  refine ⟨hs.numbered, fun b hb hcall => ?_, fun c hc hcall => ?_, ?_⟩
  · rcases List.mem_append.mp hb with hb | hb
    · exact hs.inFlight b (List.mem_of_mem_eraseIdx hb) hcall
    · obtain ⟨p, hp, hframe, hb⟩ := mem_transits hb
      obtain ⟨harp, x, hx, hle⟩ := hs.inFlight a hmem (hb.symm.trans hcall)
      obtain ⟨harp', y, z, hy, hz, hless⟩ := forwarded_frame hout harp hp
      rw [hx, Option.some.injEq] at hy
      subst hy
      rw [hframe]
      exact ⟨harp', z, hz, by omega⟩
  · rcases List.mem_append.mp hc with hc | hc
    · exact hs.sent c hc hcall
    · obtain ⟨p, -, rfl⟩ := List.mem_map.mp hc
      intro frame hframe
      obtain rfl := Option.some.inj hframe
      exact hs.inFlight a hmem hcall
  · have hbudget := hs.budget
    rw [budget_eraseIdx D K ha] at hbudget
    have hsend := budget_send wire D K { s with inFlight := s.inFlight.eraseIdx k } a.host a.call
      call s.calls (some a.frame) (Function.update s.host a.host out.node) out.sent
    refine (le_of_eq_of_le hsend (Nat.add_le_add_left ?_ _)).trans hbudget
    split
    · rename_i hcall
      exact cost_recvFrame (hD a.host) (hK a.host) (hs.inFlight a hmem hcall).1 hout
    · exact Nat.zero_le _

lemma Alive.step [DecidableEq N] {host : N → Node} {D K call : ℕ} {ttl : UInt8}
    (hD : ∀ i, (host i).currDevice.devices.length ≤ D) (hK : ∀ i, fanOut wire i (host i) ≤ K)
    (hsound : Sound host s) (hs : Alive D K call ttl s) (h : step wire s e = some t) :
    Alive D K call ttl t := by
  obtain ⟨i, sent, rfl⟩ | ⟨i, d, frame, rfl⟩ | ⟨k, a, tmp, out, ha, hout, rfl⟩ := step_cases h
  · exact hs.send i sent
  · exact hs.arrive i d frame
  · refine hs.receive (fun i => ?_) (fun i => ?_) ha hout
    · rw [hsound.currDevice]
      exact hD i
    · rw [fanOut, hsound.currDevice]
      exact hK i

lemma reach_le_succ (D K ttl : ℕ) : reach D K ttl ≤ reach D K (ttl + 1) := by
  induction ttl with
  | zero => exact Nat.zero_le _
  | succ ttl ih => exact Nat.add_le_add_left (Nat.mul_le_mul_left K ih) D

/-- An injected packet has its number for itself, and is charged by its TTL. -/
lemma Sound.inject [DecidableEq N] {host : N → Node} {D K : ℕ} {ttl : UInt8}
    (hD : ∀ i, (host i).currDevice.devices.length ≤ D) (hK : ∀ i, fanOut wire i (host i) ≤ K)
    (hs : Sound host s) (he : e.Injects ttl) (h : Traffic.step wire s e = some t) :
    Alive D K s.calls ttl t := by
  have hfresh : budget D K s s.calls = 0 := by
    unfold budget
    rw [List.countP_eq_zero.mpr fun c hc => by simpa using Nat.ne_of_lt (hs.sent c hc),
      List.map_congr_left (g := fun _ => 0) fun a ha => if_neg (Nat.ne_of_lt (hs.inFlight a ha))]
    simp
  cases e with
  | network => exact absurd he id
  | send i src dest proto buf t' =>
    obtain ⟨hproto, rfl⟩ := he
    obtain ⟨sent, hsend, h⟩ := Option.bind_eq_some_iff.mp h
    obtain rfl := Option.some.inj h
    refine ⟨Nat.lt_succ_self _, fun a ha hcall => ?_, fun c hc hcall => ?_, ?_⟩
    · rcases List.mem_append.mp ha with ha | ha
      · exact absurd hcall (Nat.ne_of_lt (hs.inFlight a ha))
      · obtain ⟨p, hp, hframe, -⟩ := mem_transits ha
        obtain ⟨destmac, mac, hip⟩ := Node.sendIPPacket_frames hsend hp
        rw [hframe, hip, isMyArp, frameIP_ipFrame, frameTTL_ipFrame]
        exact ⟨beq_eq_false_iff_ne.mpr hproto, _, rfl, le_refl _⟩
    · rcases List.mem_append.mp hc with hc | hc
      · exact absurd hcall (Nat.ne_of_lt (hs.sent c hc))
      · obtain ⟨p, -, rfl⟩ := List.mem_map.mp hc
        exact nofun
    · rw [budget_send, if_pos rfl, hfresh, Nat.zero_add]
      refine cost_sendIPPacket ?_ ?_ hsend
      · rw [hs.currDevice]
        exact hD i
      · rw [fanOut, hs.currDevice]
        exact hK i
  | arrive i d frame =>
    obtain ⟨harp, httl⟩ := he
    obtain rfl := Option.some.inj h
    refine ⟨Nat.lt_succ_self _, fun a ha hcall => ?_, fun c hc hcall => ?_, ?_⟩
    · rcases List.mem_append.mp ha with ha | ha
      · exact absurd hcall (Nat.ne_of_lt (hs.inFlight a ha))
      · rw [List.mem_singleton.mp ha]
        exact ⟨harp, ttl, httl, le_refl _⟩
    · exact absurd hcall (Nat.ne_of_lt (hs.sent c hc))
    · have hreach : frameReach D K frame = reach D K ttl.toNat := by rw [frameReach, httl]
      simp only [Network.budget, Nat.add_eq_zero_iff] at hfresh ⊢
      rw [List.map_append, List.sum_append, List.map_singleton, List.sum_singleton, if_pos rfl,
        hfresh.1, hfresh.2, hreach, Nat.zero_add, Nat.zero_add]
      exact reach_le_succ D K ttl.toNat

/-- Along the frames of one packet the TTL falls. -/
lemma chain_length {host : N → Node} {D K call : ℕ} {ttl : UInt8} (hsound : Sound host s)
    (hs : Alive D K call ttl s) {l : List Cast} (hl : l.IsChain (fun c c' => c'.cause = some c.frame))
    (hmem : ∀ c ∈ l, c ∈ s.sent ∧ c.call = call ∧ c.cause.isSome) : l.length ≤ ttl.toNat := by
  have hless : ∀ c ∈ l, ∃ frame a b, c.cause = some frame ∧ frameTTL frame = some a ∧
      frameTTL c.frame = some b ∧ a.toNat = b.toNat + 1 ∧ a.toNat ≤ ttl.toNat := by
    intro c hc
    obtain ⟨hsent, hcall, hcause⟩ := hmem c hc
    obtain ⟨frame, hframe⟩ := Option.isSome_iff_exists.mp hcause
    have hderived := hs.sent c hsent hcall
    obtain ⟨-, x, hx, hle⟩ := hderived frame hframe
    obtain ⟨a, b, ha, hb, hab⟩ := hsound.oneLess c hsent (fun f hf => (hderived f hf).1) frame hframe
    rw [hx, Option.some.injEq] at ha
    exact ⟨frame, x, b, hframe, hx, hb, ha ▸ hab, hle⟩
  cases l with
  | nil => exact Nat.zero_le _
  | cons c l =>
    have hlen : l.length ≤ c.ttl := by
      refine length_le_of_rank (P := (· ∈ c :: l)) (fun c₁ c₂ _ h₂ hcause => ?_) hl (fun _ h => h)
      obtain ⟨frame, a, b, hframe, ha, hb, hab, -⟩ := hless c₂ h₂
      obtain rfl := Option.some.inj (hframe.symm.trans hcause)
      rw [Cast.ttl, Cast.ttl, ha, hb, Option.getD_some, Option.getD_some, hab]
      exact Nat.lt_succ_self _
    obtain ⟨-, a, b, -, -, hb, hab, hle⟩ := hless c List.mem_cons_self
    rw [Cast.ttl, hb, Option.getD_some] at hlen
    rw [List.length_cons]
    omega

/-- The most frames that can derive from one packet. -/
def forwardBound [Fintype N] (wire : N → ℕ → List (N × ℕ)) (host : N → Node) (ttl : UInt8) : ℕ :=
  reach (∑ i, (host i).currDevice.devices.length) (∑ i, fanOut wire i (host i)) (ttl.toNat + 1)

/-- Whatever the topology, the tables and the other traffic: a frame that a host forwards has a TTL
one less than the frame that caused it, none is caused by a frame with TTL 0, and what derives from
one injected packet are chains of at most as many forwards as its TTL says, and bounded in number. -/
theorem forwarded_packets_die_out [Fintype N] [DecidableEq N] {host : N → Node}
    {es es' : List (TrafficEvent N)} {ttl : UInt8} {s' : Network N}
    (hs : run (step wire) (start host) es = some s)
    (he : e.Injects ttl) (hs' : step wire s e = some s') (ht : run (step wire) s' es' = some t) :
    (∀ c ∈ t.sent, (∀ frame ∈ c.cause, isMyArp frame = false) → c.OneLess) ∧
    (∀ frame, isMyArp frame = false → frameTTL frame = some 0 →
      ∀ c ∈ t.sent, c.cause ≠ some frame) ∧
    (∀ l : List Cast, l.IsChain (fun c c' => c'.cause = some c.frame) →
      (∀ c ∈ l, c ∈ t.sent ∧ c.call = s.calls ∧ c.cause.isSome) → l.length ≤ ttl.toNat) ∧
    t.sent.countP (fun c => c.call == s.calls && c.cause.isSome) ≤ forwardBound wire host ttl := by
  have hD := devices_le_sum host
  have hK := fanOut_le_sum wire host
  have hsound : Sound host s := run_invariant (I := Sound host) (fun _ _ _ hs h => hs.step h)
    (sound_start host) hs
  obtain ⟨hsound', halive⟩ := run_invariant
    (I := fun s' => Sound host s' ∧ Alive _ _ s.calls ttl s')
    (fun _ _ _ hs h => ⟨hs.1.step h, hs.2.step hD hK hs.1 h⟩)
    ⟨hsound.step hs', hsound.inject hD hK he hs'⟩ ht
  refine ⟨hsound'.oneLess, fun frame harp hzero c hc hcause => ?_, fun l hl hmem => ?_, ?_⟩
  · obtain ⟨a, b, ha, -, hless⟩ := hsound'.oneLess c hc
      (fun f hf => (Option.some.inj (hcause.symm.trans hf)) ▸ harp) frame hcause
    rw [hzero, Option.some.injEq] at ha
    subst ha
    exact absurd hless (Nat.succ_ne_zero _).symm
  · exact chain_length hsound' halive hl hmem
  · refine le_trans ?_ ((Nat.le_add_right _ _).trans halive.budget)
    exact List.countP_mono_left fun c _ hc => (Bool.and_eq_true_iff.mp hc).1

/-- The frames of the one packet under way, delivered one after the other. -/
def lineDeliveries : List (TrafficEvent (Fin 3)) :=
  [0, 0, 0, 0, 0].map (fun k => .network (.deliver k 0))

/-- Three hosts in a line without any routes: a packet of the first with TTL 2 goes back and forth
until its TTL is used up. -/
theorem forwarded_packets_die_out_line :
    ∃ t, run (step lineWire) (start lineHost) (.send 0 1 9 6 [] 2 :: lineDeliveries) = some t ∧
      t.inFlight = [] ∧ t.sent.countP (fun c => c.call == 0 && c.cause.isSome) = 4 ∧
      t.sent.countP (fun c => c.call == 0 && c.cause.isSome) ≤ forwardBound lineWire lineHost 2 := by
  have hstart : run (step lineWire) (start lineHost) [] = some (start lineHost) := rfl
  have hinjects : (.send 0 1 9 6 [] 2 : TrafficEvent (Fin 3)).Injects 2 := ⟨by decide, rfl⟩
  have hrun : run (step lineWire) (start lineHost) (.send 0 1 9 6 [] 2 :: lineDeliveries) = some _ :=
    (Option.some_get (by decide +kernel)).symm
  obtain ⟨s, hsent, ht⟩ := run_cons_eq_some.mp hrun
  exact ⟨_, hrun, List.length_eq_zero_iff.mp (by decide +kernel), by decide +kernel,
    (forwarded_packets_die_out hstart hinjects hsent ht).2.2.2⟩

end Traffic

end ITCP
