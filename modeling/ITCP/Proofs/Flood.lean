import ITCP.Proofs.Broadcast
import Mathlib.Algebra.Order.BigOperators.Group.Finset

/-!
# The myArp flood

Every myArp frame that gets through to `sendArpBroadCast` is sent on, whether or not it improved
the table, so the flood is bounded by the TTL alone. `sendArpBroadCast` is called with the TTL less
one, which does not fit into eight bits when the TTL received was 0. As long as no such frame is
re-broadcast, a call of `sendArp` pays in advance for all frames that derive from it.
-/

namespace ITCP
open Lib

/-- The TTL of the frame is smaller than that of the frame that caused it. -/
def Cast.Descends (c : Cast) : Prop :=
  ∀ cause ∈ c.cause, ∃ a b, frameTTL cause = some a ∧ frameTTL c.frame = some b ∧ b < a

namespace Network

variable {N : Type}

/-- No frame with TTL 0 is delivered to a host that re-broadcasts it. -/
def timely (s : Network N) : NetworkEvent N → Bool
  | .sendArp _ _ => true
  | .deliver k _ => (s.inFlight[k]?).all (fun a =>
      !((s.host a.host).rebroadcasts a.frame a.device && frameTTL a.frame == some 0))

lemma timely_deliver {s : Network N} {k : ℕ} {tmp : UInt8} {a : Transit N}
    (ha : s.inFlight[k]? = some a) : s.timely (.deliver k tmp) = true ↔
      ¬((s.host a.host).rebroadcasts a.frame a.device = true ∧ frameTTL a.frame = some 0) := by
  simp only [timely, ha, Option.all_some, Bool.not_eq_true', Bool.and_eq_false_imp,
    beq_eq_false_iff_ne, not_and, ne_eq]

lemma ttl_ne_zero {s : Network N} {k : ℕ} {tmp tmp' : UInt8} {a : Transit N} {src : UInt32} {ttl : ℤ}
    {mac : Mac} (ha : s.inFlight[k]? = some a) (htimely : s.timely (.deliver k tmp) = true)
    (hreb : (s.host a.host).rebroadcasts a.frame a.device = true)
    (hframe : a.frame = arpFrame src ttl tmp' mac) : UInt8.ofInt ttl ≠ 0 := by
  intro h0
  refine (timely_deliver ha).mp htimely ⟨hreb, ?_⟩
  rw [hframe, frameTTL_arpFrame, h0]

/-- Every frame in flight is a myArp frame. -/
def OnlyArp (s : Network N) : Prop :=
  ∀ a ∈ s.inFlight, ∃ src ttl tmp mac, a.frame = arpFrame src ttl tmp mac

lemma mem_transits {wire : N → ℕ → List (N × ℕ)} {call : ℕ} {i : N} {sent : List (ℕ × List UInt8)}
    {a : Transit N} (h : a ∈ transits wire call i sent) :
    ∃ p ∈ sent, a.frame = p.2 ∧ a.call = call := by
  obtain ⟨p, hp, ha⟩ := List.mem_flatMap.mp h
  obtain ⟨e, -, rfl⟩ := List.mem_map.mp ha
  exact ⟨p, hp, rfl, rfl⟩

lemma mem_arpFrames {n : Node} {src : UInt32} {ttl : ℤ} {tmp : UInt8} {p : ℕ × List UInt8}
    (h : p ∈ n.arpFrames src ttl tmp) :
    ∃ d ∈ n.currDevice.devices, p.2 = arpFrame src ttl tmp d.Mac := by
  obtain ⟨d, hd, rfl⟩ := List.mem_map.mp h
  exact ⟨d, hd, rfl⟩

variable {wire : N → ℕ → List (N × ℕ)}

/-! ### What a frame can cause -/

/-- The number of frames that can derive from one in flight, by its TTL, when a host sends at most
`D` frames for one that it receives and at most `K` hosts hear of them. -/
def reach (D K : ℕ) : ℕ → ℕ
  | 0 => 0
  | ttl + 1 => D + K * reach D K ttl

def frameReach (D K : ℕ) (frame : List UInt8) : ℕ :=
  match frameTTL frame with
  | some ttl => reach D K ttl.toNat
  | none => 0

lemma frameReach_arpFrame (D K : ℕ) (src : UInt32) (ttl : ℤ) (tmp : UInt8) (mac : Mac) :
    frameReach D K (arpFrame src ttl tmp mac) = reach D K (UInt8.ofInt ttl).toNat := by
  rw [frameReach, frameTTL_arpFrame]

/-- The frames that derive from a call: those that were sent, and those that can still be caused by
the frames in flight. -/
def budget (D K : ℕ) (s : Network N) (call : ℕ) : ℕ :=
  s.sent.countP (fun c => c.call == call) +
    (s.inFlight.map (fun a => if a.call = call then frameReach D K a.frame else 0)).sum

/-- What frames sent by a host add to the budget of their call. -/
def cost (wire : N → ℕ → List (N × ℕ)) (D K : ℕ) (i : N) (sent : List (ℕ × List UInt8)) : ℕ :=
  sent.length + (sent.map (fun p => (wire i p.1).length * frameReach D K p.2)).sum

/-- How many hear of a broadcast of the host. -/
def fanOut (wire : N → ℕ → List (N × ℕ)) (i : N) (n : Node) : ℕ :=
  (n.currDevice.devices.map (fun d => (wire i d.ID).length)).sum

lemma devices_le_sum [Fintype N] (host : N → Node) (i : N) :
    (host i).currDevice.devices.length ≤ ∑ i, (host i).currDevice.devices.length :=
  Finset.single_le_sum (f := fun i => (host i).currDevice.devices.length)
    (fun _ _ => Nat.zero_le _) (Finset.mem_univ i)

lemma fanOut_le_sum [Fintype N] (wire : N → ℕ → List (N × ℕ)) (host : N → Node) (i : N) :
    fanOut wire i (host i) ≤ ∑ i, fanOut wire i (host i) :=
  Finset.single_le_sum (f := fun i => fanOut wire i (host i)) (fun _ _ => Nat.zero_le _)
    (Finset.mem_univ i)

lemma cost_append (D K : ℕ) (i : N) (sent sent' : List (ℕ × List UInt8)) :
    cost wire D K i (sent ++ sent') = cost wire D K i sent + cost wire D K i sent' := by
  simp only [cost, List.length_append, List.map_append, List.sum_append]
  omega

lemma sum_arpFrames (D K : ℕ) (i : N) (n : Node) (src : UInt32) (ttl : ℤ) (tmp : UInt8) :
    ((n.arpFrames src ttl tmp).map (fun p => (wire i p.1).length * frameReach D K p.2)).sum =
      fanOut wire i n * reach D K (UInt8.ofInt ttl).toNat := by
  simp only [Node.arpFrames, List.map_map, Function.comp_def, frameReach_arpFrame, fanOut,
    List.sum_map_mul_right]

lemma cost_arpFrames {D K : ℕ} {i : N} {n : Node} (hD : n.currDevice.devices.length ≤ D)
    (hK : fanOut wire i n ≤ K) (src : UInt32) (ttl : ℤ) (tmp : UInt8) :
    cost wire D K i (n.arpFrames src ttl tmp) ≤ D + K * reach D K (UInt8.ofInt ttl).toNat := by
  rw [cost, sum_arpFrames, Node.arpFrames, List.length_map]
  exact Nat.add_le_add hD (Nat.mul_le_mul_right _ hK)

lemma cost_flatMap {D K b : ℕ} {i : N} {l : List Device} {f : Device → List (ℕ × List UInt8)}
    (h : ∀ d, cost wire D K i (f d) ≤ b) : cost wire D K i (l.flatMap f) ≤ l.length * b := by
  induction l with
  | nil => exact Nat.zero_le _
  | cons d l ih =>
    rw [List.flatMap_cons, cost_append, List.length_cons, Nat.add_mul, Nat.one_mul]
    have hd := h d
    omega

lemma sum_transits (D K : ℕ) (i : N) (call call' : ℕ) (sent : List (ℕ × List UInt8)) :
    ((transits wire call i sent).map
      (fun a => if a.call = call' then frameReach D K a.frame else 0)).sum =
        if call = call' then
          (sent.map (fun p => (wire i p.1).length * frameReach D K p.2)).sum else 0 := by
  induction sent with
  | nil => exact (ite_self 0).symm
  | cons p sent ih =>
    have hp : ((wire i p.1).map (fun e => (⟨call, e.1, e.2, p.2⟩ : Transit N))).map
        (fun a => if a.call = call' then frameReach D K a.frame else 0) =
          List.replicate (wire i p.1).length (if call = call' then frameReach D K p.2 else 0) := by
      rw [List.map_map]
      change (wire i p.1).map (fun _ => if call = call' then frameReach D K p.2 else 0) = _
      rw [List.map_const']
    rw [transits, List.flatMap_cons, List.map_append, List.sum_append, hp, List.sum_replicate,
      ← transits, ih, List.map_cons, List.sum_cons]
    split <;> simp

/-- Frames that a host sends are charged to their call. -/
lemma budget_send (wire : N → ℕ → List (N × ℕ)) (D K : ℕ) (s : Network N) (i : N) (call call' calls : ℕ)
    (cause : Option (List UInt8)) (host : N → Node) (sent : List (ℕ × List UInt8)) :
    budget D K ⟨host, s.inFlight ++ transits wire call i sent,
      s.sent ++ sent.map (fun p => ⟨call, cause, p.2⟩), calls⟩ call' =
        budget D K s call' + if call = call' then cost wire D K i sent else 0 := by
  have hcount : (sent.map (fun p => (⟨call, cause, p.2⟩ : Cast))).countP
      (fun c => c.call == call') = if call = call' then sent.length else 0 := by
    rw [List.countP_map]
    split
    · rename_i h
      simp [Function.comp_def, h]
    · rename_i h
      simp [Function.comp_def, h]
  simp only [budget, List.countP_append, List.map_append, List.sum_append, sum_transits, hcount,
    cost]
  split <;> omega

/-- A frame that arrives releases what was set aside for it. -/
lemma budget_eraseIdx (D K : ℕ) {s : Network N} {k : ℕ} {a : Transit N}
    (ha : s.inFlight[k]? = some a) (call : ℕ) :
    budget D K s call = budget D K { s with inFlight := s.inFlight.eraseIdx k } call +
      if a.call = call then frameReach D K a.frame else 0 := by
  obtain ⟨hk, rfl⟩ := List.getElem?_eq_some_iff.mp ha
  have hperm := (List.getElem_cons_eraseIdx_perm hk).symm
  have hsum := (hperm.map (fun a => if a.call = call then frameReach D K a.frame else 0)).sum_eq
  rw [List.map_cons, List.sum_cons] at hsum
  simp only [budget, hsum]
  omega

/-- The devices never change, every frame sent has a smaller TTL than its cause, and no call has
more frames to its name than it has paid for. -/
structure Paid (D K : ℕ) (host : N → Node) (s : Network N) : Prop where
  currDevice : ∀ i, (s.host i).currDevice = (host i).currDevice
  onlyArp : s.OnlyArp
  descends : ∀ c ∈ s.sent, c.Descends
  budget : ∀ call, budget D K s call ≤ D * reach D K 9
  fresh : ∀ call, s.calls ≤ call → s.budget D K call = 0

lemma start_paid (D K : ℕ) (host : N → Node) : Paid D K host (start host) where
  currDevice := fun _ => rfl
  onlyArp := fun _ ha => absurd ha List.not_mem_nil
  descends := fun _ hc => absurd hc List.not_mem_nil
  budget := fun _ => Nat.zero_le _
  fresh := fun _ _ => rfl

variable [DecidableEq N]

/-! ### One step -/

/-- A call of `sendArp` puts the frames of each address of the host in flight. -/
lemma step_sendArp {s t : Network N} {i : N} {tmp : UInt8}
    (h : step wire s (.sendArp i tmp) = some t) : ∃ sent,
      sent = (s.host i).currDevice.devices.flatMap (fun d => (s.host i).arpFrames d.IP 8 tmp) ∧
      t = { s with
        inFlight := s.inFlight ++ transits wire s.calls i sent
        sent := s.sent ++ sent.map (fun p => ⟨s.calls, none, p.2⟩)
        calls := s.calls + 1 } := by
  obtain ⟨sent, hsent, rfl⟩ := step_sendArp_eq_some.mp h
  rw [Node.sendArp_eq, Option.some.injEq] at hsent
  exact ⟨sent, hsent.symm, rfl⟩

/-- What the delivery of a frame can do to the network: the frame is dropped, or it is learnt from
and re-broadcast. -/
inductive Delivered (wire : N → ℕ → List (N × ℕ)) (s : Network N) (k : ℕ) (a : Transit N) :
    Network N → Prop
  | dropped (h : (s.host a.host).rebroadcasts a.frame a.device = false) :
      Delivered wire s k a { s with inFlight := s.inFlight.eraseIdx k }
  | passedOn {src : UInt32} {ttl : ℤ} {tmp tmp' : UInt8} {mac : Mac} {n : Node} (j : ℕ)
      (hframe : a.frame = arpFrame src ttl tmp mac)
      (h : (s.host a.host).rebroadcasts a.frame a.device = true)
      (howns : (s.host a.host).owns src = false) (hne : (s.host a.host).currDevice.devices ≠ [])
      (hdev : n.currDevice = (s.host a.host).currDevice)
      (hfind : ∀ k, n.routeTable.find? k = if k = ⟨src, fullMask⟩
          then some (RtValue.improved ((s.host a.host).routeTable.find? ⟨src, fullMask⟩)
            ⟨j, mac, (UInt8.ofInt ttl).toNat⟩)
          else (s.host a.host).routeTable.find? k) :
      Delivered wire s k a { s with
        host := Function.update s.host a.host n
        inFlight := s.inFlight.eraseIdx k ++ transits wire a.call a.host
          ((s.host a.host).arpFrames src ((UInt8.ofInt ttl).toNat - 1) tmp')
        sent := s.sent ++ ((s.host a.host).arpFrames src ((UInt8.ofInt ttl).toNat - 1) tmp').map
          (fun p => ⟨a.call, some a.frame, p.2⟩) }

lemma step_deliver {s t : Network N} {k : ℕ} {tmp : UInt8} (hs : s.OnlyArp)
    (h : step wire s (.deliver k tmp) = some t) :
    ∃ a, s.inFlight[k]? = some a ∧ Delivered wire s k a t := by
  obtain ⟨a, ha, ⟨n, sent, delivered⟩, hout, rfl⟩ := step_deliver_eq_some.mp h
  obtain ⟨src, ttl, tmp', mac, hframe⟩ := hs a (List.mem_of_getElem? ha)
  refine ⟨a, ha, ?_⟩
  rw [hframe] at hout
  rcases Node.recvFrame_arpFrame hout with ⟨hreb, hn, hsent⟩ |
    ⟨hreb, howns, hne, hdev, hsent, j, hfind⟩
  · obtain rfl : n = s.host a.host := hn
    obtain rfl : sent = [] := hsent
    simp only [transits, Function.update_eq_self, List.flatMap_nil, List.append_nil, List.map_nil]
    exact .dropped (hframe ▸ hreb)
  · obtain rfl := hsent
    exact .passedOn j hframe (hframe ▸ hreb) howns hne hdev hfind

lemma step_currDevice {s t : Network N} {e : NetworkEvent N} (hs : s.OnlyArp)
    (h : step wire s e = some t) (i : N) : (t.host i).currDevice = (s.host i).currDevice := by
  cases e with
  | sendArp =>
    obtain ⟨sent, -, rfl⟩ := step_sendArp h
    rfl
  | deliver =>
    obtain ⟨a, -, hdel⟩ := step_deliver hs h
    cases hdel with
    | dropped => rfl
    | passedOn j hframe hreb howns hne hdev =>
      by_cases hi : i = a.host
      · rw [hi, ← hdev]
        exact congrArg Node.currDevice (Function.update_self ..)
      · exact congrArg Node.currDevice (Function.update_of_ne hi ..)

lemma step_onlyArp {s t : Network N} {e : NetworkEvent N} (hs : s.OnlyArp)
    (h : step wire s e = some t) : t.OnlyArp := by
  have harp : ∀ {n : Node} {src : UInt32} {ttl : ℤ} {tmp : UInt8} {p : ℕ × List UInt8},
      p ∈ n.arpFrames src ttl tmp → ∃ src ttl tmp mac, p.2 = arpFrame src ttl tmp mac :=
    fun hp => (mem_arpFrames hp).elim fun d hd => ⟨_, _, _, _, hd.2⟩
  cases e with
  | sendArp i tmp =>
    obtain ⟨sent, rfl, rfl⟩ := step_sendArp h
    intro a ha
    rcases List.mem_append.mp ha with ha | ha
    · exact hs a ha
    · obtain ⟨p, hp, hframe, -⟩ := mem_transits ha
      obtain ⟨d, -, hp⟩ := List.mem_flatMap.mp hp
      exact hframe ▸ harp hp
  | deliver k tmp =>
    obtain ⟨b, -, hdel⟩ := step_deliver hs h
    cases hdel with
    | dropped => exact fun a ha => hs a (List.mem_of_mem_eraseIdx ha)
    | passedOn =>
      intro a ha
      rcases List.mem_append.mp ha with ha | ha
      · exact hs a (List.mem_of_mem_eraseIdx ha)
      · obtain ⟨p, hp, hframe, -⟩ := mem_transits ha
        exact hframe ▸ harp hp

/-! ### Every run -/

lemma ofInt_sub_one {ttl : UInt8} (h : ttl ≠ 0) :
    (UInt8.ofInt (ttl.toNat - 1)).toNat + 1 = ttl.toNat := by
  have hlt := ttl.toNat_lt
  have hpos : 0 < ttl.toNat := by
    rw [Nat.pos_iff_ne_zero]
    exact fun h0 => h (UInt8.toNat_inj.mp h0)
  have hval : ((UInt8.ofInt (ttl.toNat - 1)).toNat : ℤ) = ttl.toNat - 1 :=
    toNat_ofInt (by omega) (by omega)
  omega

/-- A delivery leaves every budget as it is or lower. -/
lemma budget_deliver {D K : ℕ} {s t : Network N} {k : ℕ} {tmp : UInt8} (hs : s.OnlyArp)
    (hD : ∀ i, (s.host i).currDevice.devices.length ≤ D) (hK : ∀ i, fanOut wire i (s.host i) ≤ K)
    (htimely : s.timely (.deliver k tmp) = true) (h : step wire s (.deliver k tmp) = some t)
    (call : ℕ) : t.budget D K call ≤ s.budget D K call := by
  obtain ⟨a, ha, hdel⟩ := step_deliver hs h
  rw [budget_eraseIdx D K ha]
  cases hdel with
  | dropped => exact Nat.le_add_right _ _
  | @passedOn src ttl _ tmp _ _ _ hframe hreb =>
    have hne := ttl_ne_zero ha htimely hreb hframe
    have hpays : cost wire D K a.host ((s.host a.host).arpFrames src
        ((UInt8.ofInt ttl).toNat - 1) tmp) ≤ frameReach D K a.frame := by
      rw [hframe, frameReach_arpFrame]
      exact (cost_arpFrames (hD a.host) (hK a.host) _ _ _).trans_eq
        (congrArg (reach D K) (ofInt_sub_one hne))
    have hsend := budget_send wire D K { s with inFlight := s.inFlight.eraseIdx k } a.host
      a.call call s.calls (some a.frame) (Function.update s.host a.host ‹Node›)
      ((s.host a.host).arpFrames src ((UInt8.ofInt ttl).toNat - 1) tmp)
    refine le_of_eq_of_le hsend (Nat.add_le_add_left ?_ _)
    split
    · exact hpays
    · exact Nat.zero_le _

/-- A call of `sendArp` pays for the whole flood. -/
lemma budget_sendArp {D K : ℕ} {s t : Network N} {i : N} {tmp : UInt8}
    (hD : ∀ i, (s.host i).currDevice.devices.length ≤ D) (hK : ∀ i, fanOut wire i (s.host i) ≤ K)
    (h : step wire s (.sendArp i tmp) = some t) (call : ℕ) :
    t.budget D K call ≤ s.budget D K call + if s.calls = call then D * reach D K 9 else 0 := by
  obtain ⟨sent, hsent, rfl⟩ := step_sendArp h
  rw [budget_send]
  refine Nat.add_le_add_left ?_ _
  split
  · have hcost : cost wire D K i sent ≤
        (s.host i).currDevice.devices.length * (D + K * reach D K 8) := by
      rw [hsent]
      exact cost_flatMap fun d => cost_arpFrames (hD i) (hK i) d.IP 8 tmp
    exact hcost.trans (Nat.mul_le_mul_right _ (hD i))
  · exact le_refl _

lemma step_descends {s t : Network N} {e : NetworkEvent N} (hs : s.OnlyArp)
    (hdesc : ∀ c ∈ s.sent, c.Descends) (htimely : s.timely e = true)
    (h : step wire s e = some t) : ∀ c ∈ t.sent, c.Descends := by
  intro c hc
  cases e with
  | sendArp i tmp =>
    obtain ⟨sent, -, rfl⟩ := step_sendArp h
    rcases List.mem_append.mp hc with hc | hc
    · exact hdesc c hc
    · obtain ⟨p, -, rfl⟩ := List.mem_map.mp hc
      intro cause hcause
      cases hcause
  | deliver k tmp =>
    obtain ⟨a, ha, hdel⟩ := step_deliver hs h
    cases hdel with
    | dropped => exact hdesc c hc
    | @passedOn src ttl _ tmp _ _ _ hframe hreb =>
      rcases List.mem_append.mp hc with hc | hc
      · exact hdesc c hc
      · have hne := ttl_ne_zero ha htimely hreb hframe
        obtain ⟨p, hp, rfl⟩ := List.mem_map.mp hc
        obtain ⟨d, -, hp⟩ := mem_arpFrames hp
        intro cause hcause
        obtain rfl := Option.some.inj hcause
        refine ⟨_, _, by rw [hframe, frameTTL_arpFrame], by rw [hp, frameTTL_arpFrame], ?_⟩
        have hlt := ofInt_sub_one hne
        rw [UInt8.lt_iff_toNat_lt]
        omega

/-- A re-broadcast of a frame with TTL 0 does not descend. -/
lemma timely_of_descends {s t : Network N} {e : NetworkEvent N} (hs : s.OnlyArp)
    (h : step wire s e = some t) (ht : ∀ c ∈ t.sent, c.Descends) : s.timely e = true := by
  cases e with
  | sendArp => rfl
  | deliver k tmp =>
    obtain ⟨a, ha, hdel⟩ := step_deliver hs h
    refine (timely_deliver ha).mpr fun ⟨hreb, h0⟩ => ?_
    cases hdel with
    | dropped hdrop =>
      rw [hdrop] at hreb
      cases hreb
    | passedOn j hframe hreb howns hne =>
      obtain ⟨d, hd⟩ := List.exists_mem_of_ne_nil _ hne
      obtain ⟨ttl, ttl', hcause, -, hlt⟩ := ht _ (List.mem_append_right _
        (List.mem_map_of_mem (List.mem_map_of_mem hd))) a.frame rfl
      rw [h0, Option.some.injEq] at hcause
      rw [← hcause, UInt8.lt_iff_toNat_lt] at hlt
      exact Nat.not_lt_zero _ hlt

lemma step_paid {D K : ℕ} {host : N → Node} {s t : Network N} {e : NetworkEvent N}
    (hD : ∀ i, (host i).currDevice.devices.length ≤ D) (hK : ∀ i, fanOut wire i (host i) ≤ K)
    (hs : Paid D K host s) (htimely : s.timely e = true) (h : step wire s e = some t) :
    Paid D K host t := by
  have hdev : ∀ i, (t.host i).currDevice = (host i).currDevice := fun i =>
    (step_currDevice hs.onlyArp h i).trans (hs.currDevice i)
  have hD' : ∀ i, (s.host i).currDevice.devices.length ≤ D := fun i => by
    rw [hs.currDevice i]
    exact hD i
  have hK' : ∀ i, fanOut wire i (s.host i) ≤ K := fun i => by
    rw [fanOut, hs.currDevice i]
    exact hK i
  have hdesc := step_descends hs.onlyArp hs.descends htimely h
  cases e with
  | sendArp i tmp =>
    have hcalls : t.calls = s.calls + 1 := by
      obtain ⟨sent, -, rfl⟩ := step_sendArp h
      rfl
    refine ⟨hdev, step_onlyArp hs.onlyArp h, hdesc, fun call => ?_, fun call hcall => ?_⟩
    · have hb := budget_sendArp hD' hK' h call
      split at hb
      · rename_i hnew
        have h0 := hs.fresh call (le_of_eq hnew)
        omega
      · exact hb.trans (hs.budget call)
    · have hb := budget_sendArp hD' hK' h call
      rw [hs.fresh call (by omega), if_neg (by omega)] at hb
      exact Nat.le_zero.mp hb
  | deliver k tmp =>
    have hcalls : t.calls = s.calls := by
      obtain ⟨a, -, hdel⟩ := step_deliver hs.onlyArp h
      cases hdel <;> rfl
    have hb := budget_deliver hs.onlyArp hD' hK' htimely h
    refine ⟨hdev, step_onlyArp hs.onlyArp h, hdesc, fun call => (hb call).trans (hs.budget call),
      fun call hcall => ?_⟩
    have h0 := hs.fresh call (by omega)
    have hle := hb call
    omega

/-- The most frames that can derive from one call of `sendArp`. -/
def floodBound [Fintype N] (wire : N → ℕ → List (N × ℕ)) (host : N → Node) : ℕ :=
  let D := ∑ i, (host i).currDevice.devices.length
  let K := ∑ i, fanOut wire i (host i)
  D * reach D K 9

/-- In a run from any tables every re-broadcast has a smaller TTL than the frame that caused it,
and the frames that derive from one call of `sendArp` are bounded in number, exactly when no frame
with TTL 0 was delivered to a host that re-broadcasts it. -/
theorem flood_dies_out [Fintype N] {host : N → Node} {es : List (NetworkEvent N)} {t : Network N}
    (h : run (step wire) (start host) es = some t) :
    ((∀ c ∈ t.sent, c.Descends) ∧
      ∀ call, t.sent.countP (fun c => c.call == call) ≤ floodBound wire host) ↔
        run (restrict (fun s e => timely s e = true) (step wire)) (start host) es = some t := by
  constructor
  · rintro ⟨hdesc, -⟩
    refine (run_restrict_of (I := OnlyArp) (J := fun s => ∀ c ∈ s.sent, c.Descends)
      (fun s e t hs h => step_onlyArp hs h) (fun s e t hs h ht c hc => ht c ?_)
      (fun s e t hs h ht => timely_of_descends hs h ht) (fun a ha => absurd ha List.not_mem_nil)
      h hdesc).2
    cases e with
    | sendArp =>
      obtain ⟨sent, -, rfl⟩ := step_sendArp h
      exact List.mem_append_left _ hc
    | deliver =>
      obtain ⟨a, -, hdel⟩ := step_deliver hs h
      cases hdel with
      | dropped => exact hc
      | passedOn => exact List.mem_append_left _ hc
  · intro hrun
    have hD := devices_le_sum host
    have hK := fanOut_le_sum wire host
    have hpaid := run_invariant (I := Paid _ _ host) (fun s e t hs h =>
      step_paid hD hK hs (restrict_eq_some.mp h).1 (restrict_eq_some.mp h).2)
      (start_paid _ _ host) hrun
    exact ⟨hpaid.descends, fun call => (Nat.le_add_right _ _).trans (hpaid.budget call)⟩

/-! ### Hosts in a line -/

/-- Three hosts in a line; the one in the middle has two devices. -/
def lineHost : Fin 3 → Node
  | 0 => ⟨⟨[⟨⟨0, 0, 0, 0, 0, 1⟩, 1, "veth0", 0⟩], by decide, by decide⟩, .empty⟩
  | 1 => ⟨⟨[⟨⟨0, 0, 0, 0, 0, 2⟩, 2, "veth0", 0⟩, ⟨⟨0, 0, 0, 0, 0, 3⟩, 3, "veth1", 1⟩], by decide,
      by decide⟩, .empty⟩
  | 2 => ⟨⟨[⟨⟨0, 0, 0, 0, 0, 4⟩, 4, "veth0", 0⟩], by decide, by decide⟩, .empty⟩

def lineWire : Fin 3 → ℕ → List (Fin 3 × ℕ)
  | 0, 0 => [(1, 0)]
  | 1, 0 => [(0, 0)]
  | 1, 1 => [(2, 0)]
  | 2, 0 => [(1, 1)]
  | _, _ => []

/-- A frame of the first host reaches the second, which passes it on. -/
def oneHop : List (NetworkEvent (Fin 3)) := [.sendArp 0 0, .deliver 0 0]

theorem flood_dies_out_oneHop : ∃ t, run (step lineWire) (start lineHost) oneHop = some t ∧
    t.sent.length = 3 ∧ (∀ c ∈ t.sent, c.Descends) ∧
      ∀ call, t.sent.countP (fun c => c.call == call) ≤ floodBound lineWire lineHost := by
  have hrestrict : run (restrict (fun s e => timely s e = true) (step lineWire)) (start lineHost)
      oneHop = some _ := (Option.some_get (by decide +kernel)).symm
  have hrun := run_of_restrict hrestrict
  exact ⟨_, hrun, by decide +kernel, (flood_dies_out hrun).mpr hrestrict⟩

/-- The second and the third host pass the frame of the first to and fro until its TTL is 0. -/
def pingPong : List (NetworkEvent (Fin 3)) :=
  .sendArp 0 0 :: [0, 1, 1, 2, 2, 3, 3, 4, 4].map (fun k => .deliver k 0)

/-- The TTL after 0 is 255. -/
theorem flood_dies_out_fails : ∃ t, run (step lineWire) (start lineHost) pingPong = some t ∧
    ∃ c ∈ t.sent, c.cause.bind frameTTL = some 0 ∧ frameTTL c.frame = some 255 :=
  ⟨_, (Option.some_get (by decide +kernel)).symm, by decide +kernel⟩

end Network

end ITCP
