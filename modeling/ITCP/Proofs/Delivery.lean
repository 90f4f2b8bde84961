import ITCP.Proofs.Convergence

/-!
# Delivery along learnt routes

A packet for an address to which its sender has a route goes from host to host along the routes,
each of which leads nearer to an owner of the address, until an owner hands it to its IP callback.
It is never in two places, and it is handed over once.
-/

namespace ITCP
open Lib

/-- A host keeps its route, or takes a better one. -/
lemma Node.recvFrame_route {n : Node} {frame : List UInt8} {id : ℕ} {tmp : UInt8} {out : Outcome}
    (h : n.recvFrame frame id tmp = some out) (dest : UInt32) :
    out.node.route dest = n.route dest ∨
      ∃ v', out.node.route dest = some v' ∧ ∀ v, n.route dest = some v → v.ttl < v'.ttl := by
  obtain ⟨hn, -⟩ | ⟨ip, -, ⟨-, mac, hrecv⟩ | ⟨-, hn, -⟩⟩ := recvFrame_outcome h
  · exact Or.inl (by rw [hn])
  · cases howns : n.owns ip.src with
    | true =>
      rw [recvArp, howns, if_pos rfl, Option.some.injEq, Prod.mk.injEq] at hrecv
      exact Or.inl (by rw [← hrecv.1])
    | false =>
      obtain ⟨d, hd⟩ := getDevice_of_recvFrame h
      obtain ⟨n', hn', -, hfind⟩ := recvArp_eq hd howns fullMask mac (ip.ttl.toNat : ℤ) tmp
      rw [hrecv, Option.some.injEq, Prod.mk.injEq] at hn'
      rw [hn'.1, route, hfind]
      by_cases hk : (⟨dest, fullMask⟩ : RtKey) = ⟨ip.src, fullMask⟩
      · rw [if_pos hk, route, hk]
        rcases RtValue.improved_same_or (n.routeTable.find? ⟨ip.src, fullMask⟩)
          ⟨d.ID, mac, ip.ttl.toNat⟩ with hsame | hbetter
        · exact Or.inl hsame.symm
        · exact Or.inr ⟨_, rfl, hbetter⟩
      · rw [if_neg hk]
        exact Or.inl rfl
  · exact Or.inl (by rw [hn])

namespace Network

variable {N : Type}

/-- Every wire has two ends; a device may hear itself. -/
def Paired [DecidableEq N] (wire : N → ℕ → List (N × ℕ)) : Prop :=
  ∀ i d j e, (j, e) ∈ wire i d → (j, e) ≠ (i, d) → others wire j e = [(i, d)]

/-- The owners of the address are only reached on devices that have it. -/
def EndsAt (host : N → Node) (wire : N → ℕ → List (N × ℕ)) (dest : UInt32) : Prop :=
  ∀ i d j e, (j, e) ∈ wire i d → (host j).owns dest = true →
    ∃ device, (host j).getDevice e = some device ∧ device.IP = dest

/-- The route of the host, if it is not an owner of the address, says that an owner is no more than
`r` further hops away. -/
def Within (dest : UInt32) (now : N → Node) (r : ℕ) (i : N) : Prop :=
  (now i).owns dest = true ∨ ∃ v, (now i).route dest = some v ∧ 9 ≤ v.ttl + r

/-- A frame with the packet that its receiver will not drop. -/
structure UnderWay (host : N → Node) (wire : N → ℕ → List (N × ℕ)) (src dest : UInt32)
    (proto : UInt8) (buf : List UInt8) (now : N → Node) (ttl r : ℕ) (a : Transit N) : Prop where
  wire : ∃ i d, (a.host, a.device) ∈ wire i d
  frame : ∃ destmac mac e, a.frame = ipFrame src dest proto buf ttl destmac mac ∧
    (host a.host).getDevice a.device = some e ∧ e.Mac ≠ mac
  within : Within dest now r a.host

/-- A frame of the call that is not one that its receiver sent itself. -/
def pending (now : N → Node) (call : ℕ) (a : Transit N) : Bool :=
  a.call == call && !(now a.host).ownFrame a.frame a.device

variable {host : N → Node} {wire : N → ℕ → List (N × ℕ)} {src dest : UInt32} {proto : UInt8}
  {buf : List UInt8} {announced : N → Bool} {s : Network N} {ttl r call : ℕ}

lemma pending_eq_true {now : N → Node} {a : Transit N} : pending now call a = true ↔
    a.call = call ∧ (now a.host).ownFrame a.frame a.device = false := by
  rw [pending, Bool.and_eq_true, beq_iff_eq, Bool.not_eq_true']

/-- The hosts keep their devices, and each keeps its route or takes a better one. -/
structure Keeps (dest : UInt32) (now now' : N → Node) : Prop where
  currDevice : ∀ i, (now' i).currDevice = (now i).currDevice
  route : ∀ i, (now' i).route dest = (now i).route dest ∨
    ∃ v', (now' i).route dest = some v' ∧ ∀ v, (now i).route dest = some v → v.ttl < v'.ttl

lemma Keeps.refl (dest : UInt32) (now : N → Node) : Keeps dest now now :=
  ⟨fun _ => rfl, fun _ => Or.inl rfl⟩

lemma Keeps.le {now now' : N → Node} (h : Keeps dest now now') {i : N} {v : RtValue}
    (hv : (now i).route dest = some v) : ∃ v', (now' i).route dest = some v' ∧ v.ttl ≤ v'.ttl := by
  rcases h.route i with hsame | ⟨v', hv', hbetter⟩
  · exact ⟨v, hsame.trans hv, le_refl _⟩
  · exact ⟨v', hv', (hbetter v hv).le⟩

lemma Keeps.pending {now now' : N → Node} (h : Keeps dest now now') (call : ℕ) :
    pending now' call = pending now call := funext fun a => by
  rw [Network.pending, Node.ownFrame_congr (h.currDevice a.host), ← Network.pending]

lemma Keeps.recvFrame [DecidableEq N] {now : N → Node} {i : N} {frame : List UInt8} {id : ℕ}
    {tmp : UInt8} {out : Node.Outcome} (h : (now i).recvFrame frame id tmp = some out)
    (dest : UInt32) : Keeps dest now (Function.update now i out.node) := by
  refine ⟨fun j => ?_, fun j => ?_⟩
  all_goals by_cases hj : j = i
  · rw [hj, Function.update_self, (Node.recvFrame_cases h).1]
  · rw [Function.update_of_ne hj]
  · subst hj
    rw [Function.update_self]
    exact Node.recvFrame_route h dest
  · rw [Function.update_of_ne hj]
    exact Or.inl rfl

lemma UnderWay.keeps {now now' : N → Node} {a : Transit N} (hkeeps : Keeps dest now now')
    (h : UnderWay host wire src dest proto buf now ttl r a) :
    UnderWay host wire src dest proto buf now' ttl r a := by
  refine ⟨h.wire, h.frame, h.within.imp (fun howns => ?_) fun ⟨v, hv, hle⟩ => ?_⟩
  · rw [Node.owns, hkeeps.currDevice, ← Node.owns, howns]
  · obtain ⟨v', hv', hle'⟩ := hkeeps.le hv
    exact ⟨v', hv', hle.trans (Int.add_le_add_right hle' r)⟩

lemma within_of_height {i : N} {h : ℕ} (hheight : h + 1 ≤ (s.host i).height (announced i) dest)
    (hr : 8 ≤ h + r) : Within dest s.host r i := by
  by_cases howns : (s.host i).owns dest = true
  · exact Or.inl howns
  · rw [Node.height_eq_of_owns_false ((Bool.not_eq_true _).mp howns)] at hheight
    cases hv : (s.host i).route dest with
    | none =>
      rw [hv] at hheight
      exact absurd hheight (Nat.not_succ_le_zero h)
    | some v =>
      rw [hv, Option.map_some, Option.getD_some] at hheight
      exact Or.inr ⟨v, hv, by omega⟩

variable [DecidableEq N]

lemma Link.others {i j : N} {d e : Device} {id : ℕ} (hpaired : Paired wire)
    (hlink : Link host wire dest i d j id) (he : (host j).getDevice id = some e)
    (hne : d.Mac ≠ e.Mac) : others wire j id = [(i, d.ID)] := by
  refine hpaired i d.ID j id hlink.wire fun heq => hne ?_
  obtain ⟨rfl, rfl⟩ := Prod.mk.inj heq
  rw [Option.some.inj ((Node.getDevice_of_mem hlink.device).symm.trans he)]

/-- Apart from the device itself, a frame reaches the other end of the wire. -/
lemma filter_transits_others {i j : N} {id id' call : ℕ} {e d : Device} {now : N → Node}
    (hothers : others wire j id = [(i, id')]) (he : (now j).getDevice id = some e)
    (hd : (now i).getDevice id' = some d) (hne : d.Mac ≠ e.Mac) (destmac : Mac) :
    (transits wire call j [(id, ipFrame src dest proto buf ttl destmac e.Mac)]).filter
        (pending now call) =
      [⟨call, i, id', ipFrame src dest proto buf ttl destmac e.Mac⟩] := by
  have hpending : ∀ q ∈ wire j id, pending now call
      ⟨call, q.1, q.2, ipFrame src dest proto buf ttl destmac e.Mac⟩ = decide (q ≠ (j, id)) := by
    intro q hq
    rw [pending, beq_self_eq_true, Bool.true_and]
    by_cases hself : q = (j, id)
    · rw [hself, Node.ownFrame_ipFrame he, beq_self_eq_true, decide_eq_false (not_not.mpr rfl)]
      rfl
    · have hmem : q ∈ others wire j id := List.mem_filter.mpr ⟨hq, decide_eq_true hself⟩
      rw [hothers, List.mem_singleton] at hmem
      rw [decide_eq_true hself, hmem, Node.ownFrame_ipFrame hd, beq_eq_false_iff_ne.mpr hne.symm,
        Bool.not_false]
  rw [transits, List.flatMap_singleton, List.filter_map]
  exact congrArg (List.map _) ((List.filter_congr hpending).trans hothers)

/-- A host that has a route sends the packet to the next hop only, which is one hop nearer. -/
lemma Charted.sendIPPacket (hs : Charted host wire dest announced s) (hpaired : Paired wire)
    (hdest : dest ≠ 0xffffffff) {j : N} {v : RtValue} (hv : (s.host j).route dest = some v)
    (hr : 8 ≤ v.ttl + r) (src : UInt32) (proto : UInt8) (buf : List UInt8) (ttl call : ℕ) :
    ∃ p a, (s.host j).sendIPPacket src dest proto buf ttl = some [p] ∧
      (transits wire call j [p]).filter (pending s.host call) = [a] ∧ a.call = call ∧
      UnderWay host wire src dest proto buf s.host ttl r a := by
  obtain ⟨i, d, h, httl, h1, hmac, hlink, hsource⟩ := hs.routes j v hv
  obtain ⟨e, he, hne, -, -⟩ := hlink.takes
  have hback := hlink.others hpaired he hne
  have hd := Node.getDevice_of_mem hlink.device
  have hget : ∀ i id, (s.host i).getDevice id = (host i).getDevice id := fun i id => by
    rw [Node.getDevice, hs.currDevice i, ← Node.getDevice]
  have hj := (hget j v.deviceID).trans he
  refine ⟨(v.deviceID, ipFrame src dest proto buf ttl v.dstMAC e.Mac),
    ⟨call, i, d.ID, ipFrame src dest proto buf ttl v.dstMAC e.Mac⟩,
    Node.sendIPPacket_of_route hdest hv hj src proto buf ttl,
    filter_transits_others hback hj ((hget i d.ID).trans hd) hne v.dstMAC, rfl,
    ⟨j, v.deviceID, ?_⟩, ⟨v.dstMAC, e.Mac, d, rfl, hd, hne⟩,
    within_of_height hsource.above (by omega)⟩
  have hmem : (i, d.ID) ∈ others wire j v.deviceID := hback ▸ List.mem_singleton_self _
  exact (List.mem_filter.mp hmem).1

/-- An owner that receives the packet takes it, and any other host sends it to the next hop. -/
lemma Charted.recvFrame (hs : Charted host wire dest announced s) (hpaired : Paired wire)
    (hends : EndsAt host wire dest) (hdest : dest ≠ 0xffffffff) (hproto : proto ≠ L3_MYARP)
    {a : Transit N} (ha : UnderWay host wire src dest proto buf s.host ttl r a) (hr : r ≤ ttl)
    (httl : ttl ≤ 255) (tmp : UInt8) :
    ((host a.host).owns dest = true ∧ (s.host a.host).recvFrame a.frame a.device tmp =
      some ⟨s.host a.host, [], some (constructIPPacket src dest proto buf ttl)⟩) ∨
    ∃ p b, 1 ≤ r ∧
      (s.host a.host).recvFrame a.frame a.device tmp = some ⟨s.host a.host, [p], none⟩ ∧
      (transits wire a.call a.host [p]).filter (pending s.host a.call) = [b] ∧ b.call = a.call ∧
      UnderWay host wire src dest proto buf s.host (ttl - 1) (r - 1) b := by
  obtain ⟨⟨i, d, hwire⟩, ⟨destmac, mac, e, hframe, he, hmac⟩, hwithin⟩ := ha
  have hj : (s.host a.host).getDevice a.device = some e := by
    rw [Node.getDevice, hs.currDevice, ← Node.getDevice, he]
  cases howns : (host a.host).owns dest with
  | true =>
    obtain ⟨e', he', hip⟩ := hends i d a.host a.device hwire howns
    obtain rfl : e' = e := Option.some.inj (he'.symm.trans he)
    rw [hframe]
    exact Or.inl ⟨rfl, Node.recvFrame_delivers hj hip hmac tmp⟩
  | false =>
    have howns' : (s.host a.host).owns dest = false := (hs.owns_eq _ _).trans howns
    obtain ⟨v, hv, hle⟩ := hwithin.resolve_left (by rw [howns']; exact Bool.false_ne_true)
    obtain ⟨-, -, h, hvttl, -, -, -, h8, -⟩ := hs.routes _ v hv
    have hip : e.IP ≠ dest := by
      rintro rfl
      rw [Node.owns_of_getDevice he] at howns
      cases howns
    obtain ⟨p, b, hsend, htransits, hcall, hb⟩ := hs.sendIPPacket (r := r - 1) hpaired hdest hv
      (by omega) src proto buf (ttl - 1) a.call
    refine Or.inr ⟨p, b, by omega, ?_, htransits, hcall, hb⟩
    rw [hframe]
    exact Node.recvFrame_passes hj hip hmac hproto (by omega) httl hsend tmp

omit [DecidableEq N] in
lemma filter_pending_of_ne {now : N → Node} {frames : List (Transit N)}
    (h : ∀ a ∈ frames, a.call ≠ call) : frames.filter (pending now call) = [] :=
  List.filter_eq_nil_iff.mpr fun a ha hp => h a ha (pending_eq_true.mp hp).1

end Network

/-! ### The way of one packet -/

namespace Delivery
open Network

variable {N : Type}

abbrev undisturbed (dest : UInt32) (s : Delivery N) (e : TrafficEvent N) : Prop :=
  Traffic.undisturbed dest s.network e = true

/-- The frames of the call in flight, without those that devices hear from themselves. -/
def underWay (s : Delivery N) (call : ℕ) : List (Transit N) :=
  s.network.inFlight.filter (pending s.network.host call)

def takenOf (s : Delivery N) (call : ℕ) : List (Taken N) := s.taken.filter (fun p => p.call == call)

/-- How often frames of the call were passed on. -/
def passedOn (s : Delivery N) (call : ℕ) : ℕ :=
  s.network.sent.countP (fun c => c.call == call && c.cause.isSome)

/-- The packet is in a single frame under way, or one of the owners has taken it. -/
inductive Located (host : N → Node) (wire : N → ℕ → List (N × ℕ)) (src dest : UInt32)
    (proto : UInt8) (buf : List UInt8) (ttl r call : ℕ) (s : Delivery N) : Prop
  | sent (a : Transit N) (hr : s.passedOn call ≤ r) (hway : s.underWay call = [a])
    (htaken : s.takenOf call = []) (ha : UnderWay host wire src dest proto buf s.network.host
      (ttl - s.passedOn call) (r - s.passedOn call) a)
  | arrived (j : N) (hr : s.passedOn call ≤ r) (hway : s.underWay call = [])
    (howns : (host j).owns dest = true) (htaken : s.takenOf call =
      [⟨call, j, constructIPPacket src dest proto buf (ttl - s.passedOn call : ℕ)⟩])

variable {host : N → Node} {wire : N → ℕ → List (N × ℕ)} {src dest : UInt32} {proto : UInt8}
  {buf : List UInt8} {announced : N → Bool} {s t : Delivery N} {ttl r call : ℕ}

/-- What does not concern the call. -/
lemma Located.other (h : Located host wire src dest proto buf ttl r call s)
    (hkeeps : Keeps dest s.network.host t.network.host)
    (hpassed : t.passedOn call = s.passedOn call)
    (hway : ∀ m, s.underWay call = m → m.length ≤ 1 → t.underWay call = m)
    (htaken : t.takenOf call = s.takenOf call) :
    Located host wire src dest proto buf ttl r call t := by
  cases h with
  | sent a hr hs hnone ha =>
    refine .sent a (hpassed ▸ hr) (hway _ hs (le_refl 1)) (htaken.trans hnone) ?_
    rw [hpassed]
    exact ha.keeps hkeeps
  | arrived j hr hs howns hgot =>
    refine .arrived j (hpassed ▸ hr) (hway _ hs (Nat.zero_le 1)) howns ?_
    rw [htaken, hgot, hpassed]

/-- Frames that a host sends of its own, or that arrive from outside, have other numbers. -/
lemma Located.more {frames : List (Transit N)} {sent : List Cast} {n : ℕ}
    (h : Located host wire src dest proto buf ttl r call s) (hframes : ∀ a ∈ frames, a.call ≠ call)
    (hsent : ∀ c ∈ sent, c.cause = none) :
    Located host wire src dest proto buf ttl r call
      ⟨{ s.network with
        inFlight := s.network.inFlight ++ frames, sent := s.network.sent ++ sent, calls := n },
        s.taken⟩ := by
  refine h.other (Keeps.refl _ _) ?_ (fun m hm _ => ?_) rfl
  · have hnone : sent.countP (fun c => c.call == call && c.cause.isSome) = 0 :=
      List.countP_eq_zero.mpr fun c hc => by simp [hsent c hc]
    rw [passedOn, List.countP_append, hnone]
    rfl
  · rw [underWay, List.filter_append, filter_pending_of_ne hframes, List.append_nil]
    exact hm

variable [DecidableEq N]

lemma step_eq_some {e : TrafficEvent N} : step wire s e = some t ↔
    ∃ u, Traffic.step wire s.network e = some u ∧ ⟨u, s.taken ++ handsOver s.network e⟩ = t := by
  simp only [step, Option.bind_eq_bind, Option.bind_eq_some_iff, Option.some.injEq]

/-- The state after the host has received the frame. -/
def received (wire : N → ℕ → List (N × ℕ)) (s : Delivery N) (k : ℕ) (a : Transit N)
    (out : Node.Outcome) : Delivery N :=
  ⟨{ s.network with
    host := Function.update s.network.host a.host out.node
    inFlight := s.network.inFlight.eraseIdx k ++ transits wire a.call a.host out.sent
    sent := s.network.sent ++ out.sent.map (fun p => ⟨a.call, some a.frame, p.2⟩) },
    s.taken ++ out.delivered.toList.map (fun packet => ⟨a.call, a.host, packet⟩)⟩

lemma step_deliver {k : ℕ} {tmp : UInt8} : step wire s (.network (.deliver k tmp)) = some t ↔
    ∃ a out, s.network.inFlight[k]? = some a ∧
      (s.network.host a.host).recvFrame a.frame a.device tmp = some out ∧
      received wire s k a out = t := by
  have htaken : ∀ a out, s.network.inFlight[k]? = some a →
      (s.network.host a.host).recvFrame a.frame a.device tmp = some out →
      handsOver s.network (.network (.deliver k tmp)) =
        out.delivered.toList.map (fun packet => ⟨a.call, a.host, packet⟩) := by
    intro a out ha hout
    simp only [handsOver, ha, hout, Option.bind_eq_bind, Option.bind_some]
    cases out.delivered <;> rfl
  rw [step_eq_some]
  constructor
  · rintro ⟨u, hu, rfl⟩
    obtain ⟨a, ha, out, hout, rfl⟩ := step_deliver_eq_some.mp hu
    exact ⟨a, out, ha, hout, by rw [htaken a out ha hout]; rfl⟩
  · rintro ⟨a, out, ha, hout, rfl⟩
    refine ⟨_, step_deliver_eq_some.mpr ⟨a, ha, out, hout, rfl⟩, ?_⟩
    rw [htaken a out ha hout]
    rfl

section Received

variable {k : ℕ} {a : Transit N} {out : Node.Outcome}

lemma passedOn_received : (received wire s k a out).passedOn call =
    s.passedOn call + if a.call = call then out.sent.length else 0 := by
  simp only [passedOn, received, List.countP_append, List.countP_map]
  refine congrArg (Nat.add _) ?_
  split_ifs with hcall
  · exact List.countP_eq_length.mpr fun p _ => by simp [hcall]
  · exact List.countP_eq_zero.mpr fun p _ => by simp [hcall]

lemma takenOf_received : (received wire s k a out).takenOf call = s.takenOf call ++
    if a.call = call then out.delivered.toList.map (fun packet => ⟨call, a.host, packet⟩)
    else [] := by
  simp only [takenOf, received, List.filter_append]
  refine congrArg (List.append _) ?_
  split_ifs with hcall
  · rw [hcall]
    refine List.filter_eq_self.mpr fun p hp => ?_
    obtain ⟨packet, -, rfl⟩ := List.mem_map.mp hp
    exact beq_self_eq_true call
  · refine List.filter_eq_nil_iff.mpr fun p hp => ?_
    obtain ⟨packet, -, rfl⟩ := List.mem_map.mp hp
    rwa [beq_iff_eq]

lemma underWay_received {tmp : UInt8}
    (h : (s.network.host a.host).recvFrame a.frame a.device tmp = some out) :
    (received wire s k a out).underWay call =
      (s.network.inFlight.eraseIdx k).filter (pending s.network.host call) ++
        (transits wire a.call a.host out.sent).filter (pending s.network.host call) := by
  rw [underWay, received, (Keeps.recvFrame h 0).pending call, List.filter_append]

end Received

/-- What every step preserves. -/
structure Carries (host : N → Node) (wire : N → ℕ → List (N × ℕ)) (src dest : UInt32)
    (proto : UInt8) (buf : List UInt8) (ttl r call : ℕ) (s : Delivery N) : Prop where
  charted : ∃ announced, Charted host wire dest announced s.network
  numbered : call < s.network.calls
  located : Located host wire src dest proto buf ttl r call s

/-- The packet sets out along the route of its sender. -/
lemma send_carries {u : Network N} (hsound : Traffic.Sound host u)
    (hs : Charted host wire dest announced u) (hpaired : Paired wire) (hdest : dest ≠ 0xffffffff)
    {i : N} {v : RtValue} (hv : (u.host i).route dest = some v) (hproto : proto ≠ L3_MYARP)
    (hr : 8 ≤ v.ttl + r) (h : step wire ⟨u, []⟩ (.send i src dest proto buf ttl) = some t) :
    Carries host wire src dest proto buf ttl r u.calls t := by
  obtain ⟨p, a, hsend, htransits, hcall, ha⟩ :=
    hs.sendIPPacket hpaired hdest hv hr src proto buf ttl u.calls
  obtain ⟨n, hn, rfl⟩ := step_eq_some.mp h
  have hundisturbed : Traffic.undisturbed dest u (.send i src dest proto buf ttl) = true := by
    rw [Traffic.undisturbed, beq_eq_false_iff_ne.mpr hproto, Bool.false_and, Bool.not_false]
  have hcharted := Traffic.step_charted hs hundisturbed hn
  obtain ⟨sent, hsent, hn⟩ := Option.bind_eq_some_iff.mp hn
  obtain rfl := Option.some.inj hn
  obtain rfl : sent = [p] := Option.some.inj (hsent.symm.trans hsend)
  have hfresh : u.inFlight.filter (pending u.host u.calls) = [] :=
    filter_pending_of_ne fun b hb => Nat.ne_of_lt (hsound.inFlight b hb)
  have hnone : (u.sent ++ [p].map (fun p => (⟨u.calls, none, p.2⟩ : Cast))).countP
      (fun c => c.call == u.calls && c.cause.isSome) = 0 := by
    refine List.countP_eq_zero.mpr fun c hc => ?_
    rcases List.mem_append.mp hc with hc | hc
    · simp [Nat.ne_of_lt (hsound.sent c hc)]
    · simp [List.mem_singleton.mp hc]
  refine ⟨⟨_, hcharted⟩, Nat.lt_succ_self _, .sent a (hnone.le.trans (Nat.zero_le r)) ?_ rfl ?_⟩
  · rw [underWay, List.filter_append, hfresh, htransits, List.nil_append]
  · rw [passedOn]
    dsimp only
    rw [hnone]
    exact ha

section Routed

variable (hpaired : Paired wire) (hends : EndsAt host wire dest) (hdest : dest ≠ 0xffffffff)
  (hproto : proto ≠ L3_MYARP) (hr : r ≤ ttl) (httl : ttl ≤ 255)

include hpaired hends hdest hproto hr httl

/-- A frame of the packet is delivered: an owner takes the packet, or it is passed on. -/
lemma Located.deliver (hs : Charted host wire dest announced s.network)
    (h : Located host wire src dest proto buf ttl r call s) {k : ℕ}
    {a : Transit N} (ha : s.network.inFlight[k]? = some a)
    (hpending : pending s.network.host call a = true) (tmp : UInt8) : ∃ t, step wire s (.network (.deliver k tmp)) = some t ∧
      Located host wire src dest proto buf ttl r call t ∧
      (t.takenOf call ≠ [] ∨ s.passedOn call < t.passedOn call) := by
  have hcall := (pending_eq_true.mp hpending).1
  have hperm := filter_eraseIdx_perm ha (pending s.network.host call)
  rw [List.filter_cons_of_pos hpending] at hperm
  cases h with
  | arrived j hle hway howns htaken =>
    rw [← underWay] at hperm
    rw [hway] at hperm
    exact absurd hperm.eq_nil (List.cons_ne_nil _ _)
  | sent b hle hway htaken hb =>
    rw [← underWay, hway] at hperm
    obtain ⟨rfl, hrest⟩ := List.cons.inj (List.perm_singleton.mp hperm)
    have hnode := Function.update_eq_self a.host s.network.host
    rcases hs.recvFrame hpaired hends hdest hproto hb (by omega) (by omega) tmp with
      ⟨howns, hout⟩ | ⟨p, c, hpos, hout, hsent, -, hnext⟩
    · refine ⟨_, step_deliver.mpr ⟨a, _, ha, hout, rfl⟩, .arrived a.host ?_ ?_ howns ?_, Or.inl ?_⟩
      · rw [passedOn_received, if_pos hcall]
        exact hle
      · rw [underWay_received hout, hrest]
        rfl
      · rw [passedOn_received, takenOf_received, htaken, if_pos hcall, if_pos hcall]
        rfl
      · rw [takenOf_received, htaken, if_pos hcall]
        exact List.cons_ne_nil _ _
    · have hpassed : (received wire s k a ⟨s.network.host a.host, [p], none⟩).passedOn call =
          s.passedOn call + 1 := by
        rw [passedOn_received, if_pos hcall]
        rfl
      refine ⟨_, step_deliver.mpr ⟨a, _, ha, hout, rfl⟩, .sent c ?_ ?_ ?_ ?_, Or.inr ?_⟩
      · rw [hpassed]
        omega
      · rw [hcall] at hsent
        rw [underWay_received hout, hrest, hcall, hsent]
        rfl
      · rw [takenOf_received, htaken, if_pos hcall]
        rfl
      · rw [hpassed, ← Nat.sub_sub, ← Nat.sub_sub]
        dsimp only [received]
        rwa [hnode]
      · rw [hpassed]
        exact Nat.lt_succ_self _

lemma Carries.step {e : TrafficEvent N} (hs : Carries host wire src dest proto buf ttl r call s)
    (hundisturbed : undisturbed dest s e) (h : step wire s e = some t) :
    Carries host wire src dest proto buf ttl r call t := by
  obtain ⟨⟨announced, hcharted⟩, hnumbered, hlocated⟩ := hs
  have hne : s.network.calls ≠ call := Nat.ne_of_gt hnumbered
  have htransits : ∀ {i : N} {sent : List (ℕ × List UInt8)},
      ∀ a ∈ transits wire s.network.calls i sent, a.call ≠ call := by
    intro i sent a ha
    obtain ⟨p, -, -, hcall⟩ := mem_transits ha
    rwa [hcall]
  have hown : ∀ {sent : List (ℕ × List UInt8)}, ∀ c ∈ sent.map
      (fun p => (⟨s.network.calls, none, p.2⟩ : Cast)), c.cause = none := by
    intro sent c hc
    obtain ⟨p, -, rfl⟩ := List.mem_map.mp hc
    rfl
  obtain ⟨u, hu, rfl⟩ := step_eq_some.mp h
  have hcharted' := Traffic.step_charted hcharted hundisturbed hu
  cases e with
  | network e =>
    cases e with
    | sendArp i tmp =>
      obtain ⟨sent, -, rfl⟩ := step_sendArp_eq_some.mp hu
      refine ⟨⟨_, hcharted'⟩, Nat.lt_succ_of_lt hnumbered, ?_⟩
      simpa only [handsOver, List.append_nil] using hlocated.more htransits hown
    | deliver k tmp =>
      obtain ⟨a, out, ha, hout, heq⟩ := step_deliver.mp h
      have hcalls : (received wire s k a out).network.calls = s.network.calls := rfl
      refine ⟨⟨_, hcharted'⟩, by rw [← congrArg network heq, hcalls]; exact hnumbered, ?_⟩
      cases hpending : pending s.network.host call a with
      | true =>
        obtain ⟨t', ht', hlocated', -⟩ :=
          hlocated.deliver hpaired hends hdest hproto hr httl hcharted ha hpending tmp
        exact Option.some.inj (ht'.symm.trans h) ▸ hlocated'
      | false =>
        -- a frame of another call, or one that the device sent itself, of which nothing comes
        have hnone : a.call = call → out.sent = [] ∧ out.delivered = none := fun hcall => by
          rw [pending, hcall, beq_self_eq_true, Bool.true_and, Bool.not_eq_false'] at hpending
          rw [Node.recvFrame_ownFrame hpending, Option.some.injEq] at hout
          exact hout ▸ ⟨rfl, rfl⟩
        rw [← heq]
        refine hlocated.other (Keeps.recvFrame hout dest) ?_ (fun m hm hlen => ?_) ?_
        · rw [passedOn_received]
          split_ifs with hcall
          · rw [(hnone hcall).1]
            rfl
          · rfl
        · have hsent : (transits wire a.call a.host out.sent).filter
              (pending s.network.host call) = [] := by
            by_cases hcall : a.call = call
            · rw [(hnone hcall).1]
              rfl
            · refine filter_pending_of_ne fun b hb => ?_
              obtain ⟨p, -, -, hb⟩ := mem_transits hb
              rwa [hb]
          rw [underWay_received hout, hsent, List.append_nil]
          exact (filter_eraseIdx_of_neg ha hpending).trans hm
        · rw [takenOf_received]
          split_ifs with hcall
          · rw [(hnone hcall).2]
            exact List.append_nil _
          · exact List.append_nil _
  | send i src' dest' proto' buf' ttl' =>
    obtain ⟨sent, -, hu⟩ := Option.bind_eq_some_iff.mp hu
    obtain rfl := Option.some.inj hu
    refine ⟨⟨_, hcharted'⟩, Nat.lt_succ_of_lt hnumbered, ?_⟩
    simpa only [handsOver, List.append_nil] using hlocated.more htransits hown
  | arrive i d frame =>
    obtain rfl := Option.some.inj hu
    refine ⟨⟨_, hcharted'⟩, Nat.lt_succ_of_lt hnumbered, ?_⟩
    have hframes : ∀ a ∈ [(⟨s.network.calls, i, d, frame⟩ : Transit N)], a.call ≠ call :=
      fun a ha => List.mem_singleton.mp ha ▸ hne
    have hnil : ∀ c ∈ ([] : List Cast), c.cause = none := nofun
    simpa only [handsOver, List.append_nil] using hlocated.more hframes hnil

/-- The packet can be delivered hop by hop, whatever else is in flight. -/
lemma Carries.complete (hs : Carries host wire src dest proto buf ttl r call s) :
    ∃ ds u, s.passedOn call + ds.length ≤ r + 1 ∧
      run (restrict (undisturbed dest) (Delivery.step wire)) s ds = some u ∧
      u.takenOf call ≠ [] := by
  induction hn : r - s.passedOn call using Nat.strong_induction_on generalizing s with
  | _ n ih =>
    cases hs.located with
    | arrived j hle _ _ htaken =>
      refine ⟨[], s, Nat.le_succ_of_le hle, run_nil _ s, ?_⟩
      rw [htaken]
      exact List.cons_ne_nil _ _
    | sent a hle hway _ ha =>
      have hmem : a ∈ s.underWay call := hway ▸ List.mem_singleton_self a
      obtain ⟨hflight, hpending⟩ := List.mem_filter.mp hmem
      obtain ⟨k, hk⟩ := List.mem_iff_getElem?.mp hflight
      obtain ⟨announced, hcharted⟩ := hs.charted
      obtain ⟨t, ht, hlocated, hor⟩ := hs.located.deliver hpaired hends hdest hproto hr httl
        hcharted hk hpending 0
      obtain ⟨destmac, mac, e, hframe, -, -⟩ := ha.frame
      have hother : about dest a.frame = false := by
        rw [hframe]
        exact about_ipFrame (by rw [beq_eq_false_iff_ne.mpr hproto, Bool.false_and])
      have hundisturbed : undisturbed dest s (.network (.deliver k 0)) := by
        rw [undisturbed, Traffic.undisturbed, hk, Option.all_some, hother, Bool.false_and,
          Bool.false_and, Bool.not_false]
      have hstep : restrict (undisturbed dest) (Delivery.step wire) s (.network (.deliver k 0)) =
          some t := restrict_eq_some.mpr ⟨hundisturbed, ht⟩
      rcases hor with htaken | hmore
      · refine ⟨[.network (.deliver k 0)], t, Nat.succ_le_succ hle, ?_, htaken⟩
        exact run_cons_eq_some.mpr ⟨t, hstep, run_nil _ t⟩
      · have hle' : t.passedOn call ≤ r := by
          cases hlocated with
          | sent _ hr => exact hr
          | arrived _ hr => exact hr
        obtain ⟨ds, u, hlen, hrun, htaken⟩ := ih (r - t.passedOn call) (by omega)
          (hs.step hpaired hends hdest hproto hr httl hundisturbed ht) rfl
        refine ⟨.network (.deliver k 0) :: ds, u, ?_, run_cons_eq_some.mpr ⟨t, hstep, hrun⟩, htaken⟩
        rw [List.length_cons]
        omega

end Routed

lemma lineWire_paired : Paired lineWire := by
  intro i d j e h
  unfold lineWire at h
  split at h
  all_goals simp only [List.mem_singleton, List.not_mem_nil, Prod.mk.injEq] at h
  all_goals
    obtain ⟨rfl, rfl⟩ := h
    exact fun _ => rfl

lemma lineWire_endsAt : EndsAt lineHost lineWire 1 := by
  intro i d j e h howns
  unfold lineWire at h
  split at h
  all_goals simp only [List.mem_singleton, List.not_mem_nil, Prod.mk.injEq] at h
  all_goals obtain ⟨rfl, rfl⟩ := h
  · cases howns
  · exact ⟨_, rfl, rfl⟩
  all_goals cases howns

/-- A packet for an address to which its sender has a route, with a TTL that is large enough for the
route, over wires with two ends and with any other traffic that does not disturb the routes. It is
passed on no more often than the TTL of the route says, and is at any time in a single frame or with
an owner of the address, who has taken it once, with all that was sent. Wherever it is, the hops that
are left bring it to an owner. -/
theorem packets_delivered {host : N → Node} {wire : N → ℕ → List (N × ℕ)} {s : Network N}
    {t : Delivery N} {es es' : List (TrafficEvent N)} {i : N} {v : RtValue} {src dest : UInt32}
    {proto : UInt8} {buf : List UInt8} (ttl : ℕ) (hpaired : Paired wire)
    (hends : EndsAt host wire dest) (hnone : ∀ i, (host i).route dest = none)
    (hs : run (restrict (fun s e => Traffic.undisturbed dest s e = true) (Traffic.step wire))
      (start host) es = some s)
    (hv : (s.host i).route dest = some v) (hdest : dest ≠ 0xffffffff) (hproto : proto ≠ L3_MYARP)
    (hlow : 8 ≤ v.ttl + ttl) (hhigh : ttl ≤ 255)
    (ht : run (restrict (undisturbed dest) (step wire)) ⟨s, []⟩
      (.send i src dest proto buf ttl :: es') = some t) :
    v.ttl + t.passedOn s.calls ≤ 8 ∧
    ((∃ a, t.underWay s.calls = [a] ∧ t.takenOf s.calls = [] ∧
        frameIP a.frame = some ⟨src, dest, .ofInt (ttl - t.passedOn s.calls), proto, buf⟩) ∨
      t.underWay s.calls = [] ∧ ∃ j, (host j).owns dest = true ∧ t.takenOf s.calls =
        [⟨s.calls, j, constructIPPacket src dest proto buf (ttl - t.passedOn s.calls)⟩]) ∧
    ∃ ds u, v.ttl + t.passedOn s.calls + ds.length ≤ 9 ∧
      run (restrict (undisturbed dest) (step wire)) t ds = some u ∧ u.takenOf s.calls ≠ [] := by
  obtain ⟨u, hu, hrun⟩ := run_cons_eq_some.mp ht
  have hcharted := Traffic.run_charted (start_charted hnone) hs
  have hsound : Traffic.Sound host s := run_invariant (I := Traffic.Sound host)
    (fun _ _ _ hs h => hs.step h) (Traffic.sound_start host) (run_of_restrict hs)
  obtain ⟨-, -, h, hvttl, h1, -, -, h8, -⟩ := hcharted.routes i v hv
  have hcarries : Carries host wire src dest proto buf ttl (8 - h) s.calls t :=
    run_invariant (I := Carries host wire src dest proto buf ttl (8 - h) s.calls)
      (fun _ _ _ hs hstep => hs.step hpaired hends hdest hproto (by omega) hhigh
        (restrict_eq_some.mp hstep).1 (restrict_eq_some.mp hstep).2)
      (send_carries hsound hcharted hpaired hdest hv hproto (by omega) (restrict_eq_some.mp hu).2)
      hrun
  obtain ⟨ds, u, hlen, hrun, htaken⟩ :=
    hcarries.complete hpaired hends hdest hproto (by omega) hhigh
  refine ⟨?_, ?_, ds, u, by omega, hrun, htaken⟩
  · cases hcarries.located with
    | sent _ hr => omega
    | arrived _ hr => omega
  · cases hcarries.located with
    | sent a hr hway htaken ha =>
      obtain ⟨destmac, mac, e, hframe, -, -⟩ := ha.frame
      refine Or.inl ⟨a, hway, htaken, ?_⟩
      rw [hframe, frameIP_ipFrame, Nat.cast_sub (by omega)]
    | arrived j hr hway howns htaken =>
      refine Or.inr ⟨hway, j, howns, ?_⟩
      rw [htaken, Nat.cast_sub (by omega)]

/-- After the flood of the first host in the line, a packet of the third reaches it over the second. -/
theorem packets_delivered_line : ∃ s t, run (Traffic.step lineWire) (start lineHost)
      Traffic.lineFlood = some s ∧ run (step lineWire) ⟨s, []⟩
        [.send 2 4 1 6 [7] 32, .network (.deliver 2 0), .network (.deliver 2 0)] = some t ∧
      ∃ j, (lineHost j).owns 1 = true ∧
        t.takenOf s.calls = [⟨s.calls, j, constructIPPacket 4 1 6 [7] 31⟩] := by
  have hnone : ∀ i, (lineHost i).route 1 = none := by
    intro i
    fin_cases i <;> rfl
  obtain ⟨s, hs, v, hv, httl, t, ht, hway, hpassed⟩ : ∃ s, run (restrict (fun s e =>
      Traffic.undisturbed 1 s e = true) (Traffic.step lineWire)) (start lineHost) Traffic.lineFlood =
        some s ∧ ∃ v, (s.host 2).route 1 = some v ∧ v.ttl = 7 ∧
      ∃ t, run (restrict (undisturbed 1) (step lineWire)) ⟨s, []⟩ [.send 2 4 1 6 [7] 32,
        .network (.deliver 2 0), .network (.deliver 2 0)] = some t ∧
      (t.underWay s.calls).length = 0 ∧ t.passedOn s.calls = 1 :=
    ⟨_, (Option.some_get (by decide +kernel)).symm, _,
      (Option.some_get (by decide +kernel)).symm, by decide +kernel, _,
      (Option.some_get (by decide +kernel)).symm, by decide +kernel, by decide +kernel⟩
  refine ⟨s, t, run_of_restrict hs, run_of_restrict ht, ?_⟩
  obtain ⟨-, ⟨a, ha, -⟩ | ⟨-, hgot⟩, -⟩ := packets_delivered 32 lineWire_paired lineWire_endsAt hnone hs hv
    (by decide) (by decide) (by omega) (by decide) ht
  · rw [ha] at hway
    cases hway
  · rw [hpassed] at hgot
    exact hgot

end Delivery

end ITCP
