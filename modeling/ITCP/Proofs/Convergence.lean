import ITCP.Proofs.Forward
import ITCP.Proofs.Routes
import ITCP.Lib.Distance
import ITCP.Lib.Erase

/-!
# Shortest routes

A flood from an owner of an address explores the network breadth first, whatever the order in which
its frames are delivered: a host re-broadcasts every frame that it takes in, so the frame that has
come the shortest way is never lost, and it carries the largest TTL. Once the frames about an address
have used up their TTL or have been delivered, the routes to it are shortest ones.
-/

namespace ITCP
open Lib

/-- How far above the end of its TTL a broadcast about the address leaves the host, which may have
announced its own addresses. -/
def Node.height (n : Node) (announced : Bool) (dest : UInt32) : ℕ :=
  if n.owns dest then (if announced then 9 else 0)
  else match n.route dest with
    | some v => v.ttl.toNat
    | none => 0

namespace Node

variable {n n' : Node} {b : Bool} {dest : UInt32}

lemma height_eq_of_owns_false (h : n.owns dest = false) :
    n.height b dest = ((n.route dest).map (fun v => v.ttl.toNat)).getD 0 := by
  rw [height, if_neg (by simp [h])]
  cases n.route dest <;> rfl

lemma height_announced (b b' : Bool) (h : n.owns dest = false ∨ b = b') :
    n.height b dest = n.height b' dest := by
  rcases h with h | h
  · rw [height_eq_of_owns_false h, height_eq_of_owns_false h]
  · rw [h]

/-- A frame about the address that is passed on raises its height, if anything. -/
lemma height_learnt {id : ℕ} {mac : Mac} {ttl : ℕ} (howns : n.owns dest = false)
    (hdev : n'.currDevice = n.currDevice)
    (hfind : ∀ k, n'.routeTable.find? k = if k = ⟨dest, fullMask⟩
      then some (RtValue.improved (n.routeTable.find? ⟨dest, fullMask⟩) ⟨id, mac, ttl⟩)
      else n.routeTable.find? k) (b : Bool) :
    (n'.height b dest = ttl ∨ n'.height b dest = n.height b dest) ∧
    ttl ≤ n'.height b dest ∧ n.height b dest ≤ n'.height b dest := by
  have howns' : n'.owns dest = false := by rw [owns, hdev, ← owns, howns]
  have hnew : n'.route dest = some (RtValue.improved (n.route dest) ⟨id, mac, ttl⟩) := by
    rw [route, hfind, if_pos rfl, route]
  rw [height_eq_of_owns_false howns', height_eq_of_owns_false howns, hnew]
  have hge := RtValue.ttl_le_improved (n.route dest) ⟨id, mac, (ttl : ℤ)⟩
  simp only [Option.map_some, Option.getD_some]
  cases hold : n.route dest with
  | none => exact ⟨Or.inl rfl, le_refl _, Nat.zero_le _⟩
  | some v =>
    have hle : v.ttl ≤ (RtValue.improved (n.route dest) ⟨id, mac, (ttl : ℤ)⟩).ttl :=
      RtValue.le_improved hold
    rw [hold] at hge hle
    simp only [Option.map_some, Option.getD_some]
    refine ⟨?_, by dsimp only at hge; omega, by omega⟩
    rcases RtValue.improved_eq_or (some v) ⟨id, mac, (ttl : ℤ)⟩ with h | h
    · rw [h]
      exact Or.inl (Int.toNat_natCast ttl)
    · rw [← Option.some.inj h]
      exact Or.inr rfl

end Node

/-! ### Frames about an address -/

/-- The frame holds a myArp packet about the address. -/
def about (dest : UInt32) (frame : List UInt8) : Bool :=
  (frameIP frame).any (fun ip => ip.protocol == L3_MYARP && ip.src == dest)

lemma about_arpFrame (dest src : UInt32) (ttl : ℤ) (tmp : UInt8) (mac : Mac) :
    about dest (arpFrame src ttl tmp mac) = (src == dest) := by
  rw [about, frameIP_arpFrame, Option.any_some, beq_self_eq_true, Bool.true_and]

lemma about_ipFrame {dest src dst : UInt32} {proto : UInt8} {buf : List UInt8} {ttl : ℤ}
    {destmac mac : Mac} (h : (proto == L3_MYARP && src == dest) = false) :
    about dest (ipFrame src dst proto buf ttl destmac mac) = false := by
  rw [about, frameIP_ipFrame, Option.any_some]
  exact h

/-- Any other frame changes nothing for the address, and causes no frames about it. -/
lemma Node.recvFrame_of_not_about {n : Node} {dest : UInt32} {frame : List UInt8} {id : ℕ}
    {tmp : UInt8} {out : Outcome} (hframe : about dest frame = false)
    (h : n.recvFrame frame id tmp = some out) : out.node.currDevice = n.currDevice ∧
      out.node.route dest = n.route dest ∧ ∀ p ∈ out.sent, about dest p.2 = false := by
  have hdev := (recvFrame_cases h).1
  obtain ⟨hn, hsent⟩ | ⟨ip, hip, ⟨hproto, mac, hrecv⟩ | ⟨hproto, hn, hforward⟩⟩ := recvFrame_outcome h
  · refine ⟨hdev, by rw [hn], fun p hp => ?_⟩
    rw [hsent] at hp
    cases hp
  · have hsrc : ip.src ≠ dest := by
      rintro rfl
      rw [about, hip, Option.any_some, hproto] at hframe
      simp at hframe
    cases howns : n.owns ip.src with
    | true =>
      rw [recvArp, howns, if_pos rfl, Option.some.injEq, Prod.mk.injEq] at hrecv
      refine ⟨hdev, by rw [← hrecv.1], fun p hp => ?_⟩
      rw [← hrecv.2] at hp
      cases hp
    | false =>
      obtain ⟨d, hd⟩ := getDevice_of_recvFrame h
      obtain ⟨n', hn', -, hfind⟩ := recvArp_eq hd howns fullMask mac (ip.ttl.toNat : ℤ) tmp
      rw [hrecv, Option.some.injEq, Prod.mk.injEq] at hn'
      refine ⟨hdev, ?_, fun p hp => ?_⟩
      · rw [hn'.1, route, hfind, if_neg fun hk => hsrc (RtKey.mk.inj hk).1.symm, route]
      · rw [hn'.2] at hp
        obtain ⟨e, -, rfl⟩ := List.mem_map.mp hp
        rw [about_arpFrame]
        exact beq_eq_false_iff_ne.mpr hsrc
  · refine ⟨hdev, by rw [hn], fun p hp => ?_⟩
    unfold forward at hforward
    split_ifs at hforward
    · rw [← Option.some.inj hforward] at hp
      cases hp
    · obtain ⟨destmac, mac, hp⟩ := sendIPPacket_frames hforward hp
      rw [hp]
      refine about_ipFrame ?_
      rw [beq_eq_false_iff_ne.mpr hproto, Bool.false_and]

namespace Network

variable {N : Type}

/-- What the first host broadcasts about `dest` on its device `d` reaches the second one on device
`id`, and the second one takes it in. -/
structure Link (host : N → Node) (wire : N → ℕ → List (N × ℕ)) (dest : UInt32) (i : N) (d : Device)
    (j : N) (id : ℕ) : Prop where
  device : d ∈ (host i).currDevice.devices
  wire : (j, id) ∈ wire i d.ID
  takes : ∃ e, (host j).getDevice id = some e ∧ d.Mac ≠ e.Mac ∧ e.IP ≠ 0xffffffff ∧
    (host j).owns dest = false

def Hears (host : N → Node) (wire : N → ℕ → List (N × ℕ)) (dest : UInt32) (i j : N) : Prop :=
  ∃ d id, Link host wire dest i d j id

lemma Link.owns {host : N → Node} {wire : N → ℕ → List (N × ℕ)} {dest : UInt32} {i j : N}
    {d : Device} {id : ℕ} (h : Link host wire dest i d j id) : (host j).owns dest = false := by
  obtain ⟨e, -, -, -, howns⟩ := h.takes
  exact howns

/-- An owner of the address that has announced its addresses. -/
def Announcer (host : N → Node) (dest : UInt32) (announced : N → Bool) (i : N) : Prop :=
  announced i = true ∧ (host i).owns dest = true

/-- No frame about the address is in flight that could be passed on. -/
def settled (s : Network N) (dest : UInt32) : Bool :=
  s.inFlight.all (fun a => !about dest a.frame || frameTTL a.frame == some 0)

lemma settled_arpFrame {s : Network N} {dest : UInt32} (h : s.settled dest = true) {a : Transit N}
    (ha : a ∈ s.inFlight) {ttl : ℤ} {tmp : UInt8} {mac : Mac}
    (hframe : a.frame = arpFrame dest ttl tmp mac) : (UInt8.ofInt ttl).toNat = 0 := by
  have hall := List.all_eq_true.mp h a ha
  rw [hframe, about_arpFrame, frameTTL_arpFrame, beq_self_eq_true, Bool.not_true, Bool.false_or,
    beq_iff_eq, Option.some.injEq] at hall
  rw [hall]
  rfl

section Charted

variable (host : N → Node) (wire : N → ℕ → List (N × ℕ)) (dest : UInt32) (announced : N → Bool)

/-- A walk from an announcer to the host, along which a frame about the address is passed on. -/
abbrev Reached (k : ℕ) (i : N) : Prop :=
  Steps (Hears host wire dest) (Announcer host dest announced) k i

/-- The TTL is that of a frame from the host: a walk to the host accounts for it, and the host is
still above it. -/
structure Source (now : N → Node) (i : N) (ttl : ℕ) : Prop where
  le : ttl ≤ 8
  reached : Reached host wire dest announced (8 - ttl) i
  above : ttl + 1 ≤ (now i).height (announced i) dest

/-- Where a frame about the address comes from. -/
def Carried (now : N → Node) (a : Transit N) : Prop :=
  ∃ i d tmp, ∃ ttl : ℕ, d ∈ (host i).currDevice.devices ∧ (a.host, a.device) ∈ wire i d.ID ∧
    a.frame = arpFrame dest ttl tmp d.Mac ∧ Source host wire dest announced now i ttl

/-- Where the frame came from from which a route was learnt. -/
def Learnt (now : N → Node) (j : N) (v : RtValue) : Prop :=
  ∃ i d, ∃ ttl : ℕ, v.ttl = ttl ∧ 1 ≤ ttl ∧ v.dstMAC = d.Mac ∧
    Link host wire dest i d j v.deviceID ∧ Source host wire dest announced now i ttl

/-- A frame about the address is on its way from device `d` that would raise the one who receives it to
at most one below `h`. -/
def OnWay (s : Network N) (d : Device) (j : N) (id h : ℕ) : Prop :=
  ∃ a ∈ s.inFlight, ∃ tmp, ∃ ttl : ℕ, a.host = j ∧ a.device = id ∧
    a.frame = arpFrame dest ttl tmp d.Mac ∧ ttl ≤ 8 ∧ h ≤ ttl + 1

/-- A host that hears another one is at most one below it, or a frame on its way will see to that. -/
structure Charted (s : Network N) : Prop where
  currDevice : ∀ i, (s.host i).currDevice = (host i).currDevice
  frames : ∀ a ∈ s.inFlight, about dest a.frame = true →
    Carried host wire dest announced s.host a
  routes : ∀ j v, (s.host j).route dest = some v →
    Learnt host wire dest announced s.host j v
  relaxed : ∀ i d j id, Link host wire dest i d j id →
    2 ≤ (s.host i).height (announced i) dest →
    (s.host i).height (announced i) dest ≤ (s.host j).height (announced j) dest + 1 ∨
      OnWay dest s d j id ((s.host i).height (announced i) dest)

end Charted

variable {host : N → Node} {wire : N → ℕ → List (N × ℕ)} {dest : UInt32}
  {announced announced' : N → Bool} {s t : Network N}

lemma Charted.owns_eq (hs : Charted host wire dest announced s) (i : N) (ip : UInt32) :
    (s.host i).owns ip = (host i).owns ip := by
  rw [Node.owns, hs.currDevice i, ← Node.owns]

lemma Charted.rebroadcasts_iff (hs : Charted host wire dest announced s) {j : N} {id : ℕ}
    {ttl : ℤ} {tmp : UInt8} {mac : Mac} :
    (s.host j).rebroadcasts (arpFrame dest ttl tmp mac) id = true ↔
      ∃ e, (host j).getDevice id = some e ∧ mac ≠ e.Mac ∧ e.IP ≠ 0xffffffff ∧
        (host j).owns dest = false := by
  rw [Node.rebroadcasts_arpFrame_iff, Node.getDevice, hs.currDevice j, ← Node.getDevice,
    hs.owns_eq j]

lemma toNat_ofInt_natCast {ttl : ℕ} (h : ttl ≤ 8) : (UInt8.ofInt (ttl : ℤ)).toNat = ttl := by
  have hval := toNat_ofInt (Int.natCast_nonneg ttl) (by omega)
  omega

/-! ### More announcers, better routes -/

lemma Announcer.mono (hmono : ∀ i, announced i = true → announced' i = true) (i : N)
    (h : Announcer host dest announced i) : Announcer host dest announced' i :=
  ⟨hmono i h.1, h.2⟩

section Mono

variable {now now' : N → Node} (hmono : ∀ i, announced i = true → announced' i = true)
  (hgrow : ∀ i, (now i).height (announced i) dest ≤ (now' i).height (announced' i) dest)

include hmono hgrow

lemma Source.mono {i : N} {ttl : ℕ} (h : Source host wire dest announced now i ttl) :
    Source host wire dest announced' now' i ttl :=
  ⟨h.le, h.reached.mono (Announcer.mono hmono), h.above.trans (hgrow i)⟩

lemma Carried.mono {a : Transit N} (h : Carried host wire dest announced now a) :
    Carried host wire dest announced' now' a := by
  obtain ⟨i, d, tmp, ttl, hd, hw, hframe, hsource⟩ := h
  exact ⟨i, d, tmp, ttl, hd, hw, hframe, hsource.mono hmono hgrow⟩

lemma Learnt.mono {j : N} {v : RtValue} (h : Learnt host wire dest announced now j v) :
    Learnt host wire dest announced' now' j v := by
  obtain ⟨i, d, ttl, hv, h1, hmac, hlink, hsource⟩ := h
  exact ⟨i, d, ttl, hv, h1, hmac, hlink, hsource.mono hmono hgrow⟩

end Mono

/-! ### Frames on their way -/

lemma mem_transits_iff {call : ℕ} {i : N} {sent : List (ℕ × List UInt8)} {a : Transit N} :
    a ∈ transits wire call i sent ↔
      ∃ p ∈ sent, (a.host, a.device) ∈ wire i p.1 ∧ a.frame = p.2 ∧ a.call = call := by
  simp only [transits, List.mem_flatMap, List.mem_map]
  constructor
  · rintro ⟨p, hp, e, he, rfl⟩
    exact ⟨p, hp, he, rfl, rfl⟩
  · rintro ⟨p, hp, he, hframe, hcall⟩
    refine ⟨p, hp, _, he, ?_⟩
    cases a
    simp only at hframe hcall
    rw [hframe, hcall]

lemma not_about_transits {call : ℕ} {i : N} {sent : List (ℕ × List UInt8)}
    (h : ∀ p ∈ sent, about dest p.2 = false) {a : Transit N} (ha : a ∈ transits wire call i sent) :
    about dest a.frame = false := by
  obtain ⟨p, hp, -, hframe, -⟩ := mem_transits_iff.mp ha
  rw [hframe]
  exact h p hp

/-- Frames about the address that a host broadcasts are accounted for by a walk to the host. -/
lemma carried_arpFrames {i : N} {call ttl : ℕ} {tmp : UInt8} {a : Transit N}
    {n : Node} {now : N → Node} (hdev : n.currDevice = (host i).currDevice)
    (hsource : Source host wire dest announced now i ttl)
    (ha : a ∈ transits wire call i (n.arpFrames dest ttl tmp)) :
    Carried host wire dest announced now a := by
  obtain ⟨p, hp, hw, hframe, -⟩ := mem_transits_iff.mp ha
  obtain ⟨d, hd, rfl⟩ := List.mem_map.mp hp
  exact ⟨i, d, tmp, ttl, hdev ▸ hd, hw, hframe, hsource⟩

/-- A broadcast puts a frame on its way to everyone who hears the host. -/
lemma exists_transit {i j : N} {d : Device} {id : ℕ} {n : Node}
    (hdev : n.currDevice = (host i).currDevice) (hlink : Link host wire dest i d j id)
    (call ttl : ℕ) (tmp : UInt8) :
    (⟨call, j, id, arpFrame dest ttl tmp d.Mac⟩ : Transit N) ∈
      transits wire call i (n.arpFrames dest ttl tmp) :=
  mem_transits_iff.mpr ⟨_, List.mem_map_of_mem (hdev ▸ hlink.device), hlink.wire, rfl, rfl⟩

lemma OnWay.mono {d : Device} {j : N} {id h : ℕ} (hs : OnWay dest s d j id h)
    (hmono : ∀ a ∈ s.inFlight, about dest a.frame = true → a ∈ t.inFlight) :
    OnWay dest t d j id h := by
  obtain ⟨a, ha, tmp, ttl, hj, hid, hframe, hrest⟩ := hs
  refine ⟨a, hmono a ha ?_, tmp, ttl, hj, hid, hframe, hrest⟩
  rw [hframe, about_arpFrame, beq_self_eq_true]

lemma start_charted (hnone : ∀ i, (host i).route dest = none) :
    Charted host wire dest (fun _ => false) (start host) where
  currDevice := fun _ => rfl
  frames := fun _ ha => absurd ha List.not_mem_nil
  routes := fun j v hv => by
    rw [start, hnone j] at hv
    cases hv
  relaxed := fun i d j id _ hhigh => by
    simp [start, Node.height, hnone i] at hhigh

/-- Steps that leave the tables alone and add no frames about the address. -/
lemma Charted.frame (hs : Charted host wire dest announced s) {n : ℕ} {frames : List (Transit N)}
    {sent : List Cast} (hframes : ∀ a ∈ frames, about dest a.frame = false) :
    Charted host wire dest announced
      { s with inFlight := s.inFlight ++ frames, sent := sent, calls := n } where
  currDevice := hs.currDevice
  frames := fun a ha habout => by
    rcases List.mem_append.mp ha with ha | ha
    · exact (hs.frames a ha habout).mono (fun _ h => h) fun _ => le_refl _
    · rw [hframes a ha] at habout
      cases habout
  routes := fun j v hv => (hs.routes j v hv).mono (fun _ h => h) fun _ => le_refl _
  relaxed := fun i d j id hlink hhigh => (hs.relaxed i d j id hlink hhigh).imp_right fun h =>
    h.mono fun a ha _ => List.mem_append_left _ ha

/-! ### Settled networks -/

lemma Charted.le_height (hs : Charted host wire dest announced s) (hsettled : s.settled dest = true)
    {i j : N} (h : Hears host wire dest i j) (hhigh : 2 ≤ (s.host i).height (announced i) dest) :
    (s.host i).height (announced i) dest ≤ (s.host j).height (announced j) dest + 1 := by
  obtain ⟨d, id, hlink⟩ := h
  refine (hs.relaxed i d j id hlink hhigh).resolve_right ?_
  rintro ⟨a, ha, tmp, ttl, -, -, hframe, h8, hle⟩
  have hzero := settled_arpFrame hsettled ha hframe
  rw [toNat_ofInt_natCast h8] at hzero
  omega

lemma Charted.height_announcer (hs : Charted host wire dest announced s) (i : N)
    (h : Announcer host dest announced i) : 9 ≤ (s.host i).height (announced i) dest := by
  rw [Node.height, hs.owns_eq i, if_pos h.2, if_pos h.1]

/-- Once the frames have settled, the TTL of a route measures the distance. -/
lemma Charted.route_isDist (hs : Charted host wire dest announced s)
    (hsettled : s.settled dest = true) {j : N} {v : RtValue} (hv : (s.host j).route dest = some v) :
    ∃ i, ∃ ttl : ℕ, v.ttl = ttl ∧ 1 ≤ ttl ∧ ttl ≤ 8 ∧ (s.host i).HasMac v.dstMAC ∧
      Hears host wire dest i j ∧ Reached host wire dest announced (8 - ttl) i ∧
      IsDist (Hears host wire dest) (Announcer host dest announced) (9 - ttl) j := by
  obtain ⟨i, d, ttl, httl, h1, hmac, hlink, h8, hreached, -⟩ := hs.routes j v hv
  have hears : Hears host wire dest i j := ⟨d, v.deviceID, hlink⟩
  have howns : (s.host j).owns dest = false := (hs.owns_eq j dest).trans hlink.owns
  have hheight : (s.host j).height (announced j) dest = ttl := by
    rw [Node.height_eq_of_owns_false howns, hv, Option.map_some, Option.getD_some, httl,
      Int.toNat_natCast]
  have hj : Reached host wire dest announced (9 - ttl) j := by
    have hnext := hreached.next hears
    rwa [show 8 - ttl + 1 = 9 - ttl by omega] at hnext
  refine ⟨i, ttl, httl, h1, h8, ?_, hears, hreached, ?_⟩
  · rw [Node.HasMac, hs.currDevice i]
    exact ⟨d, hlink.device, hmac.symm⟩
  · rw [← hheight] at hj ⊢
    exact isDist_of_relaxed hs.height_announcer (fun a b hab => hs.le_height hsettled hab) hj
      (by omega) (by omega)

/-- Every host within reach has got a route. -/
lemma Charted.exists_route (hs : Charted host wire dest announced s)
    (hsettled : s.settled dest = true) {j : N} {k : ℕ}
    (h : Reached host wire dest announced (k + 1) j) (hk : k + 1 ≤ 8) :
    ∃ v, (s.host j).route dest = some v := by
  have hpos := h.le_height hs.height_announcer (fun a b hab => hs.le_height hsettled hab) (by omega)
  obtain ⟨i, d, id, hlink⟩ : ∃ i, Hears host wire dest i j := by
    cases h with
    | next _ hab => exact ⟨_, hab⟩
  have howns : (s.host j).owns dest = false := (hs.owns_eq j dest).trans hlink.owns
  rw [Node.height_eq_of_owns_false howns] at hpos
  cases hv : (s.host j).route dest with
  | none =>
    rw [hv] at hpos
    exact absurd hpos (by simp; omega)
  | some v => exact ⟨v, rfl⟩

/-! ### The delivery of a frame -/

variable [DecidableEq N]

/-- The delivery of a myArp frame, with the device under which a route is learnt. -/
lemma step_deliver_arp {k : ℕ} {tmp : UInt8} {a : Transit N} {src : UInt32} {ttl : ℕ} {tmp' : UInt8}
    {mac : Mac} (ha : s.inFlight[k]? = some a) (hframe : a.frame = arpFrame src ttl tmp' mac)
    (h8 : ttl ≤ 8) (h : step wire s (.deliver k tmp) = some t) :
    ((s.host a.host).rebroadcasts a.frame a.device = false ∧
      t = { s with inFlight := s.inFlight.eraseIdx k }) ∨
    ((s.host a.host).rebroadcasts a.frame a.device = true ∧ ∃ n,
      n.currDevice = (s.host a.host).currDevice ∧
      (∀ k, n.routeTable.find? k = if k = ⟨src, fullMask⟩
        then some (RtValue.improved ((s.host a.host).routeTable.find? ⟨src, fullMask⟩)
          ⟨a.device, mac, ttl⟩)
        else (s.host a.host).routeTable.find? k) ∧
      t = { s with
        host := Function.update s.host a.host n
        inFlight := s.inFlight.eraseIdx k ++
          transits wire a.call a.host ((s.host a.host).arpFrames src (ttl - 1) tmp)
        sent := s.sent ++ ((s.host a.host).arpFrames src (ttl - 1) tmp).map
          (fun p => ⟨a.call, some a.frame, p.2⟩) }) := by
  obtain ⟨b, hb, out, hout, rfl⟩ := step_deliver_eq_some.mp h
  obtain rfl : b = a := Option.some.inj (hb.symm.trans ha)
  rw [hframe] at hout
  cases hreb : (s.host b.host).rebroadcasts b.frame b.device with
  | false =>
    rcases Node.recvFrame_arpFrame hout with ⟨-, hn, hsent⟩ | ⟨htrue, -⟩
    · refine Or.inl ⟨rfl, ?_⟩
      simp only [hn, hsent, transits, Function.update_eq_self, List.flatMap_nil, List.append_nil,
        List.map_nil]
    · rw [hframe, htrue] at hreb
      cases hreb
  | true =>
    obtain ⟨n, hn, hdev, hfind⟩ := Node.recvFrame_rebroadcasts (hframe ▸ hreb) tmp
    rw [toNat_ofInt_natCast h8] at hn hfind
    rw [hn, Option.some.injEq] at hout
    subst hout
    exact Or.inr ⟨rfl, n, hdev, hfind, rfl⟩

/-! ### One step -/

lemma sendArp_charted (hs : Charted host wire dest announced s) {i : N} {tmp : UInt8}
    (hannounced : ∀ j, announced' j = (announced j || decide (i = j)))
    (h : step wire s (.sendArp i tmp) = some t) : Charted host wire dest announced' t := by
  have hmono : ∀ j, announced j = true → announced' j = true := fun j hj => by
    rw [hannounced, hj, Bool.true_or]
  have hself : announced' i = true := by simp [hannounced]
  have hheight : ∀ j, ¬(j = i ∧ (s.host j).owns dest = true) →
      (s.host j).height (announced' j) dest = (s.host j).height (announced j) dest := by
    intro j hnew
    refine Node.height_announced _ _ ?_
    rw [not_and, Bool.not_eq_true] at hnew
    by_cases hji : j = i
    · exact Or.inl (hnew hji)
    · refine Or.inr ?_
      rw [hannounced, decide_eq_false (Ne.symm hji), Bool.or_false]
  have htop : (s.host i).owns dest = true → (s.host i).height (announced' i) dest = 9 :=
    fun howns => by rw [Node.height, if_pos howns, if_pos hself]
  have hgrow : ∀ j, (s.host j).height (announced j) dest ≤ (s.host j).height (announced' j) dest := by
    intro j
    by_cases hnew : j = i ∧ (s.host j).owns dest = true
    · obtain ⟨rfl, howns⟩ := hnew
      rw [htop howns]
      rw [Node.height, if_pos howns]
      split <;> omega
    · rw [hheight j hnew]
  obtain ⟨sent, rfl, rfl⟩ := step_sendArp h
  refine ⟨hs.currDevice, fun a ha habout => ?_, fun j v hv => (hs.routes j v hv).mono hmono hgrow,
    fun i' d j id hlink hhigh => ?_⟩
  · rcases List.mem_append.mp ha with ha | ha
    · exact (hs.frames a ha habout).mono hmono hgrow
    · obtain ⟨p, hp, hw, hframe, hcall⟩ := mem_transits_iff.mp ha
      obtain ⟨d, hd, hp⟩ := List.mem_flatMap.mp hp
      obtain ⟨e, -, he⟩ := mem_arpFrames hp
      rw [hframe, he, about_arpFrame, beq_iff_eq] at habout
      have howns : (s.host i).owns dest = true :=
        List.any_eq_true.mpr ⟨d, hd, beq_iff_eq.mpr habout⟩
      rw [habout] at hp
      exact carried_arpFrames (hs.currDevice i) ⟨le_refl 8,
        .source ⟨hself, (hs.owns_eq i dest).symm.trans howns⟩, (htop howns).ge⟩
        (mem_transits_iff.mpr ⟨p, hp, hw, hframe, hcall⟩)
  · dsimp only at hhigh ⊢
    by_cases hnew : i' = i ∧ (s.host i').owns dest = true
    · -- the frames just sent about the address carry the largest TTL
      obtain ⟨rfl, howns⟩ := hnew
      obtain ⟨d', hd', hip⟩ := List.any_eq_true.mp howns
      obtain rfl := beq_iff_eq.mp hip
      obtain ⟨p, hp, hw, hframe, hcall⟩ := mem_transits_iff.mp
        (exists_transit (hs.currDevice i') hlink s.calls 8 tmp)
      exact Or.inr ⟨_, List.mem_append_right _ (mem_transits_iff.mpr
        ⟨p, List.mem_flatMap.mpr ⟨d', hd', hp⟩, hw, hframe, hcall⟩), tmp, 8, rfl, rfl, rfl,
        le_refl 8, (htop howns).le⟩
    · have hj : ¬(j = i ∧ (s.host j).owns dest = true) := fun h => by
        rw [hs.owns_eq, hlink.owns] at h
        exact Bool.false_ne_true h.2
      rw [hheight i' hnew] at hhigh ⊢
      rw [hheight j hj]
      exact (hs.relaxed i' d j id hlink hhigh).imp_right fun h =>
        h.mono fun a ha _ => List.mem_append_left _ ha

/-- A frame about something else is received. -/
lemma deliver_charted_of_not_about (hs : Charted host wire dest announced s) {k : ℕ} {tmp : UInt8}
    {a : Transit N} (ha : s.inFlight[k]? = some a) (habout : about dest a.frame = false)
    (h : step wire s (.deliver k tmp) = some t) : Charted host wire dest announced t := by
  obtain ⟨b, hb, out, hout, rfl⟩ := step_deliver_eq_some.mp h
  obtain rfl : b = a := Option.some.inj (hb.symm.trans ha)
  obtain ⟨hdev, hroute, hsent⟩ := Node.recvFrame_of_not_about habout hout
  have hdev' : ∀ i, (Function.update s.host b.host out.node i).currDevice = (s.host i).currDevice :=
    fun i => by
      by_cases hi : i = b.host
      · rw [hi, Function.update_self, hdev]
      · rw [Function.update_of_ne hi]
  have hroute' : ∀ i, (Function.update s.host b.host out.node i).route dest =
      (s.host i).route dest := fun i => by
    by_cases hi : i = b.host
    · rw [hi, Function.update_self, hroute]
    · rw [Function.update_of_ne hi]
  have hheight : ∀ i b', (Function.update s.host b.host out.node i).height b' dest =
      (s.host i).height b' dest := fun i b' => by
    rw [Node.height, Node.height, hroute', Node.owns, hdev', ← Node.owns]
  refine ⟨fun i => (hdev' i).trans (hs.currDevice i), fun c hc hcabout => ?_, fun j v hv => ?_,
    fun i d j id hlink hhigh => ?_⟩
  · rcases List.mem_append.mp hc with hc | hc
    · exact (hs.frames c (List.mem_of_mem_eraseIdx hc) hcabout).mono (fun _ h => h)
        fun i => (hheight i _).ge
    · rw [not_about_transits hsent hc] at hcabout
      cases hcabout
  · exact (hs.routes j v ((hroute' j).symm.trans hv)).mono (fun _ h => h) fun i => (hheight i _).ge
  · dsimp only at hhigh ⊢
    rw [hheight] at hhigh
    rw [hheight, hheight]
    refine (hs.relaxed i d j id hlink hhigh).imp_right fun h => h.mono fun c hc hcabout => ?_
    rcases mem_eraseIdx_or ha hc with rfl | hc
    · rw [habout] at hcabout
      cases hcabout
    · exact List.mem_append_left _ hc

/-- A frame about the address is received. -/
lemma deliver_charted_of_about (hs : Charted host wire dest announced s) {k : ℕ} {tmp : UInt8}
    {a : Transit N} (ha : s.inFlight[k]? = some a) (habout : about dest a.frame = true)
    (htimely : ¬((s.host a.host).rebroadcasts a.frame a.device = true ∧ frameTTL a.frame = some 0))
    (h : step wire s (.deliver k tmp) = some t) : Charted host wire dest announced t := by
  obtain ⟨i, d, tmp', ttl, hd, hw, hframe, hsource⟩ := hs.frames a (List.mem_of_getElem? ha) habout
  have h8 := hsource.le
  rcases step_deliver_arp ha hframe h8 h with ⟨hreb, rfl⟩ | ⟨hreb, n, hdev, hfind, rfl⟩
  · refine ⟨hs.currDevice, fun b hb hbabout => ?_, fun j v hv => ?_, fun i' d' j id hlink hhigh => ?_⟩
    · exact (hs.frames b (List.mem_of_mem_eraseIdx hb) hbabout).mono (fun _ h => h)
        fun _ => le_refl _
    · exact (hs.routes j v hv).mono (fun _ h => h) fun _ => le_refl _
    refine (hs.relaxed i' d' j id hlink hhigh).imp_right ?_
    rintro ⟨b, hb, tmp₂, ttl₂, hbj, hbid, hbframe, hrest⟩
    rcases mem_eraseIdx_or ha hb with rfl | hb
    · -- a host drops nothing that it hears
      rw [hbframe, hbj, hbid, hs.rebroadcasts_iff.mpr hlink.takes] at hreb
      cases hreb
    · exact ⟨b, hb, tmp₂, ttl₂, hbj, hbid, hbframe, hrest⟩
  · have hpos : 1 ≤ ttl := by
      rcases Nat.eq_zero_or_pos ttl with rfl | hpos
      · exact absurd ⟨hreb, by rw [hframe, frameTTL_arpFrame]; rfl⟩ htimely
      · exact hpos
    have hsub : ((ttl : ℤ) - 1) = ((ttl - 1 : ℕ) : ℤ) := by omega
    have hlink : Link host wire dest i d a.host a.device :=
      ⟨hd, hw, hs.rebroadcasts_iff.mp (hframe ▸ hreb)⟩
    have howns : (s.host a.host).owns dest = false := (hs.owns_eq _ _).trans hlink.owns
    have hreached : Reached host wire dest announced (8 - (ttl - 1)) a.host := by
      have hnext := hsource.reached.next ⟨d, a.device, hlink⟩
      rwa [show 8 - ttl + 1 = 8 - (ttl - 1) by omega] at hnext
    obtain ⟨hor, hge, hgrow⟩ := Node.height_learnt howns hdev hfind (announced a.host)
    have hgrows : ∀ j, (s.host j).height (announced j) dest ≤
        (Function.update s.host a.host n j).height (announced j) dest := fun j => by
      by_cases hj : j = a.host
      · subst hj
        rw [Function.update_self]
        exact hgrow
      · rw [Function.update_of_ne hj]
    rw [hsub]
    refine ⟨fun j => ?_, fun b hb hbabout => ?_, fun j v hv => ?_, fun i' d' j id hlink' hhigh => ?_⟩
    · by_cases hj : j = a.host
      · subst hj
        simp only [Function.update_self, hdev, hs.currDevice]
      · simp only [Function.update_of_ne hj, hs.currDevice]
    · rcases List.mem_append.mp hb with hb | hb
      · exact (hs.frames b (List.mem_of_mem_eraseIdx hb) hbabout).mono (fun _ h => h) hgrows
      · refine carried_arpFrames (hs.currDevice a.host) ⟨by omega, hreached, ?_⟩ hb
        dsimp only
        rw [Function.update_self]
        omega
    · by_cases hj : j = a.host
      · subst hj
        simp only [Function.update_self, Node.route, hfind, if_true, Option.some.injEq] at hv
        subst hv
        rcases RtValue.improved_eq_or ((s.host a.host).routeTable.find? ⟨dest, fullMask⟩)
          ⟨a.device, d.Mac, ttl⟩ with hnew | hkept
        · rw [hnew]
          exact ⟨i, d, ttl, rfl, hpos, rfl, hlink, hsource.mono (fun _ h => h) hgrows⟩
        · exact (hs.routes a.host _ hkept).mono (fun _ h => h) hgrows
      · simp only [Function.update_of_ne hj] at hv
        exact (hs.routes j v hv).mono (fun _ h => h) hgrows
    · have hcases : (Function.update s.host a.host n i').height (announced i') dest =
          (s.host i').height (announced i') dest ∨ i' = a.host ∧
            (Function.update s.host a.host n i').height (announced i') dest = ttl := by
        by_cases hi : i' = a.host
        · subst hi
          rw [Function.update_self]
          exact hor.symm.imp_right fun h => ⟨rfl, h⟩
        · exact Or.inl (by rw [Function.update_of_ne hi])
      dsimp only at hhigh ⊢
      rcases hcases with hsame | ⟨rfl, hnew⟩
      · rw [hsame] at hhigh ⊢
        rcases hs.relaxed i' d' j id hlink' hhigh with hle |
          ⟨b, hb, tmp₂, ttl₂, hbj, hbid, hbframe, hb8, hle⟩
        · exact Or.inl (hle.trans (Nat.add_le_add_right (hgrows j) 1))
        · rcases mem_eraseIdx_or ha hb with rfl | hb
          · -- the frame awaited is the one delivered
            obtain ⟨-, httl, -⟩ := arpFrame_inj (hframe.symm.trans hbframe)
            have hval := congrArg UInt8.toNat httl
            rw [toNat_ofInt_natCast h8, toNat_ofInt_natCast hb8] at hval
            refine Or.inl (hle.trans (Nat.add_le_add_right ?_ 1))
            rw [← hbj, Function.update_self, ← hval]
            exact hge
          · exact Or.inr ⟨b, List.mem_append_left _ hb, tmp₂, ttl₂, hbj, hbid, hbframe, hb8, hle⟩
      · rw [hnew]
        exact Or.inr ⟨_, List.mem_append_right _
          (exists_transit (hs.currDevice a.host) hlink' a.call (ttl - 1) tmp), tmp, ttl - 1, rfl, rfl,
          rfl, by omega, by omega⟩

end Network

/-! ### Every run -/

namespace Traffic
open Network

variable {N : Type} [DecidableEq N]

/-- Frames about the address come from `sendArp` only, and none with TTL 0 is passed on. -/
def undisturbed (dest : UInt32) (s : Network N) : TrafficEvent N → Bool
  | .network (.sendArp _ _) => true
  | .network (.deliver k _) => (s.inFlight[k]?).all (fun a =>
      !(about dest a.frame && (s.host a.host).rebroadcasts a.frame a.device &&
        frameTTL a.frame == some 0))
  | .send _ src _ proto _ _ => !(proto == L3_MYARP && src == dest)
  | .arrive _ _ frame => !about dest frame

/-- The host is among those whose `sendArp` is called. -/
def announces (es : List (TrafficEvent N)) (i : N) : Bool :=
  es.any (fun e => match e with
    | .network (.sendArp j _) => decide (j = i)
    | _ => false)

variable {host : N → Node} {wire : N → ℕ → List (N × ℕ)} {dest : UInt32} {announced : N → Bool}
  {s t : Network N}

lemma step_charted {e : TrafficEvent N} (hs : Charted host wire dest announced s)
    (hundisturbed : undisturbed dest s e = true) (h : step wire s e = some t) :
    Charted host wire dest (fun j => announced j || announces [e] j) t := by
  cases e with
  | network e =>
    cases e with
    | sendArp i tmp => exact sendArp_charted hs (fun j => by simp [announces]) h
    | deliver k tmp =>
      have hkeep : Charted host wire dest announced t := by
        obtain ⟨a, ha, -⟩ := step_deliver_eq_some.mp h
        cases habout : about dest a.frame with
        | false => exact deliver_charted_of_not_about hs ha habout h
        | true =>
          refine deliver_charted_of_about hs ha habout (fun ⟨hreb, hzero⟩ => ?_) h
          simp [undisturbed, ha, habout, hreb, hzero] at hundisturbed
      simpa [announces] using hkeep
  | send i src dst proto buf ttl =>
    obtain ⟨sent, hsend, h⟩ := Option.bind_eq_some_iff.mp h
    obtain rfl := Option.some.inj h
    have hother : ∀ p ∈ sent, about dest p.2 = false := fun p hp => by
      obtain ⟨destmac, mac, hframe⟩ := Node.sendIPPacket_frames hsend hp
      rw [hframe]
      exact about_ipFrame ((Bool.not_eq_true' _).mp hundisturbed)
    have hframes : ∀ a ∈ transits wire s.calls i sent, about dest a.frame = false :=
      fun a ha => not_about_transits hother ha
    simpa [announces] using hs.frame hframes
  | arrive i device frame =>
    obtain rfl := Option.some.inj h
    have hother : about dest frame = false := (Bool.not_eq_true' _).mp hundisturbed
    have hframes : ∀ a ∈ [(⟨s.calls, i, device, frame⟩ : Transit N)], about dest a.frame = false :=
      fun a ha => List.mem_singleton.mp ha ▸ hother
    simpa [announces] using hs.frame hframes

lemma run_charted {es : List (TrafficEvent N)} (hs : Charted host wire dest announced s)
    (h : run (restrict (fun s e => undisturbed dest s e = true) (step wire)) s es = some t) :
    Charted host wire dest (fun j => announced j || announces es j) t := by
  induction es generalizing s announced with
  | nil =>
    obtain rfl := Option.some.inj h
    simpa [announces] using hs
  | cons e es ih =>
    obtain ⟨u, hu, hrun⟩ := run_cons_eq_some.mp h
    obtain ⟨hundisturbed, hstep⟩ := restrict_eq_some.mp hu
    have hall := ih (step_charted hs hundisturbed hstep) hrun
    simpa only [announces, List.any_cons, List.any_nil, Bool.or_false, Bool.or_assoc] using hall

/-- Routes to an address to which no host had one, in a network with any other traffic in which no
frame about the address with TTL 0 was passed on, once the frames about it have been delivered or
have used up their TTL. A host has a route to the address exactly if it is at most 8 hops away from
an owner that has announced itself; the TTL of the route tells how many hops, and its next hop is one
hop nearer. -/
theorem routes_shortest {es : List (TrafficEvent N)}
    (hnone : ∀ i, (host i).route dest = none) (hmacs : DistinctMacs host)
    (h : run (restrict (fun s e => undisturbed dest s e = true) (step wire)) (start host) es = some t)
    (hsettled : t.settled dest = true) :
    (∀ j k, 1 ≤ k → k ≤ 8 →
      (IsDist (Hears host wire dest) (Announcer host dest (announces es)) k j ↔
        ∃ v, (t.host j).route dest = some v ∧ v.ttl = 9 - k)) ∧
    (∀ j v, (t.host j).route dest = some v → 1 ≤ v.ttl ∧ v.ttl ≤ 8) ∧
    ∀ i j, t.NextHop dest i j → ∃ k,
      IsDist (Hears host wire dest) (Announcer host dest (announces es)) k j ∧
      IsDist (Hears host wire dest) (Announcer host dest (announces es)) (k + 1) i := by
  have hs : Charted host wire dest (announces es) t := by
    simpa only [Bool.false_or] using run_charted (start_charted hnone) h
  refine ⟨fun j k h1 h8 => ⟨fun hdist => ?_, fun ⟨v, hv, httl⟩ => ?_⟩, fun j v hv => ?_,
    fun i j ⟨v, hv, hj⟩ => ?_⟩
  · obtain ⟨m, rfl⟩ : ∃ m, k = m + 1 := ⟨k - 1, by omega⟩
    obtain ⟨v, hv⟩ := hs.exists_route hsettled hdist.1 h8
    obtain ⟨-, ttl, httl, h1', h8', -, -, -, hdist'⟩ := hs.route_isDist hsettled hv
    have hk := hdist.unique hdist'
    exact ⟨v, hv, by omega⟩
  · obtain ⟨-, ttl, httl', h1', h8', -, -, -, hdist⟩ := hs.route_isDist hsettled hv
    rwa [show 9 - ttl = k by omega] at hdist
  · obtain ⟨-, ttl, httl, h1, h8, -⟩ := hs.route_isDist hsettled hv
    omega
  · obtain ⟨m, ttl, httl, h1, h8, hm, hears, hreached, hdist⟩ := hs.route_isDist hsettled hv
    obtain rfl : m = j := hmacs m j v.dstMAC (by rwa [Node.HasMac, ← hs.currDevice m])
      (by rwa [Node.HasMac, ← hs.currDevice j])
    refine ⟨8 - ttl, ⟨hreached, fun k hk => ?_⟩, ?_⟩
    · have hle := hdist.2 _ (hk.next hears)
      omega
    · rwa [show 8 - ttl + 1 = 9 - ttl by omega]

/-- The flood of the first host in the line, to its end; meanwhile the third host sends a packet. -/
def lineFlood : List (TrafficEvent (Fin 3)) :=
  oneHop.map .network ++ .send (Fin.last 2) 4 1 6 [] 1 ::
    (List.replicate 4 (.network (.deliver 0 0)) ++ List.replicate 8 (.network (.deliver 1 0)))

lemma lineHost_distinctMacs : DistinctMacs lineHost := by
  rintro i j mac ⟨d, hd, hdmac⟩ ⟨e, he, hemac⟩
  have hall : ∀ i j, ∀ d ∈ (lineHost i).currDevice.devices,
      ∀ e ∈ (lineHost j).currDevice.devices, d.Mac = e.Mac → i = j := by decide
  exact hall i j d hd e he (hdmac.trans hemac.symm)

/-- In the line, the third host is two hops away from the first. -/
theorem routes_shortest_line :
    IsDist (Hears lineHost lineWire 1) (Announcer lineHost 1 (announces lineFlood)) 2 2 := by
  have hnone : ∀ i, (lineHost i).route 1 = none := by
    intro i
    fin_cases i <;> rfl
  obtain ⟨t, hrun, hsettled, v, hv, httl⟩ : ∃ t, run (restrict (fun s e => undisturbed 1 s e = true)
      (step lineWire)) (start lineHost) lineFlood = some t ∧ t.settled 1 = true ∧
      ∃ v, (t.host 2).route 1 = some v ∧ v.ttl = 7 :=
    ⟨_, (Option.some_get (by decide +kernel)).symm, by decide +kernel, _,
      (Option.some_get (by decide +kernel)).symm, by decide +kernel⟩
  exact ((routes_shortest hnone lineHost_distinctMacs hrun hsettled).1 2 2 (by decide)
    (by decide)).mpr ⟨v, hv, httl⟩

end Traffic

end ITCP
