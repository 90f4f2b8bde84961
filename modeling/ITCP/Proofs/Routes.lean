import ITCP.Proofs.Flood
import ITCP.Lib.Walk

/-!
# Learned routes

Starting from empty tables, a route leads to the host that sent the frame it was learnt from. That
host owns the destination, or it has a route with a larger TTL itself: it had one when it sent the
frame, and a route is only ever replaced by one with a larger TTL. Next hops therefore lead to an
owner, as long as no TTL passes from 0 to 255.
-/

namespace ITCP
open Lib

def Node.HasMac (n : Node) (mac : Mac) : Prop := ∃ d ∈ n.currDevice.devices, d.Mac = mac

instance (n : Node) (mac : Mac) : Decidable (n.HasMac mac) :=
  inferInstanceAs (Decidable (∃ d ∈ n.currDevice.devices, d.Mac = mac))

/-- The route to a single host. -/
def Node.route (n : Node) (dest : UInt32) : Option RtValue := n.routeTable.find? ⟨dest, fullMask⟩

namespace Network

variable {N : Type}

/-- The next hop of the first host for this destination is the second one. -/
def NextHop (s : Network N) (dest : UInt32) (i j : N) : Prop :=
  ∃ v, (s.host i).route dest = some v ∧ (s.host j).HasMac v.dstMAC

/-- The host owns the address, or has a route to it with a TTL above this one. -/
def Beyond (s : Network N) (dest : UInt32) (ttl : ℤ) (i : N) : Prop :=
  (s.host i).owns dest = true ∨ ∃ v, (s.host i).route dest = some v ∧ ttl < v.ttl

def Ahead (s : Network N) (dest : UInt32) (mac : Mac) (ttl : ℤ) : Prop :=
  ∃ i, (s.host i).HasMac mac ∧ s.Beyond dest ttl i

/-- The TTL of a frame is between 0 and 8, and smaller than that of the route of its sender. -/
def FrameOk (s : Network N) (frame : List UInt8) : Prop :=
  ∃ src ttl tmp mac, frame = arpFrame src ttl tmp mac ∧ 0 ≤ ttl ∧ ttl ≤ 8 ∧ s.Ahead src mac ttl

/-- So is the TTL of a route, which leads to another host. -/
structure RouteOk (s : Network N) (i : N) (k : RtKey) (v : RtValue) : Prop where
  mask : k.mask = fullMask
  owns : (s.host i).owns k.dest = false
  nonneg : 0 ≤ v.ttl
  le : v.ttl ≤ 8
  ahead : s.Ahead k.dest v.dstMAC v.ttl

structure Converging (s : Network N) : Prop where
  frames : ∀ a ∈ s.inFlight, s.FrameOk a.frame
  routes : ∀ i k v, (s.host i).routeTable.find? k = some v → s.RouteOk i k v

lemma Converging.onlyArp {s : Network N} (hs : s.Converging) : s.OnlyArp := by
  intro a ha
  obtain ⟨src, ttl, tmp, mac, hframe, -⟩ := hs.frames a ha
  exact ⟨src, ttl, tmp, mac, hframe⟩

/-- The devices are the same, and routes have been kept or replaced by ones with a larger TTL. -/
structure Improves (s t : Network N) : Prop where
  currDevice : ∀ i, (t.host i).currDevice = (s.host i).currDevice
  routes : ∀ i dest v, (s.host i).route dest = some v →
    ∃ w, (t.host i).route dest = some w ∧ v.ttl ≤ w.ttl

lemma Improves.ahead {s t : Network N} (h : Improves s t) {dest : UInt32} {mac : Mac} {ttl : ℤ}
    (ha : s.Ahead dest mac ttl) : t.Ahead dest mac ttl := by
  obtain ⟨i, hmac, hbeyond⟩ := ha
  have hdev := h.currDevice i
  refine ⟨i, by rwa [Node.HasMac, hdev], hbeyond.imp (fun howns => ?_) (fun ⟨v, hv, hlt⟩ => ?_)⟩
  · rwa [Node.owns, hdev]
  · obtain ⟨w, hw, hle⟩ := h.routes i dest v hv
    exact ⟨w, hw, hlt.trans_le hle⟩

lemma Improves.frameOk {s t : Network N} (h : Improves s t) {frame : List UInt8}
    (hs : s.FrameOk frame) : t.FrameOk frame := by
  obtain ⟨src, ttl, tmp, mac, hframe, h0, h8, ha⟩ := hs
  exact ⟨src, ttl, tmp, mac, hframe, h0, h8, h.ahead ha⟩

lemma Improves.owns_eq {s t : Network N} (h : Improves s t) (i : N) (ip : UInt32) :
    (t.host i).owns ip = (s.host i).owns ip := by
  rw [Node.owns, h.currDevice i, ← Node.owns]

lemma Improves.routeOk {s t : Network N} (h : Improves s t) {i : N} {k : RtKey} {v : RtValue}
    (hs : s.RouteOk i k v) : t.RouteOk i k v :=
  ⟨hs.mask, (h.owns_eq i k.dest).trans hs.owns, hs.nonneg, hs.le, h.ahead hs.ahead⟩

/-- The TTL on the wire is the one that the sender had in mind. -/
lemma FrameOk.wire {s : Network N} {src : UInt32} {ttl : ℤ} {tmp : UInt8} {mac : Mac}
    (h : s.FrameOk (arpFrame src ttl tmp mac)) :
    (UInt8.ofInt ttl).toNat ≤ 8 ∧ s.Ahead src mac (UInt8.ofInt ttl).toNat := by
  obtain ⟨src', ttl', tmp', mac', hframe, h0, h8, ha⟩ := h
  obtain ⟨rfl, hwire, rfl⟩ := arpFrame_inj hframe
  have httl := toNat_ofInt h0 (by omega)
  rw [hwire]
  refine ⟨by omega, ?_⟩
  rwa [httl]

/-- Frames that a host sends about an address are ahead of it by one. -/
lemma frameOk_sent {s : Network N} {i : N} {dest : UInt32} {ttl : ℤ} {tmp : UInt8}
    {n : Node} (hn : n.currDevice = (s.host i).currDevice) (hbeyond : s.Beyond dest ttl i)
    (h0 : 0 ≤ ttl) (h8 : ttl ≤ 8) {p : ℕ × List UInt8} (hp : p ∈ n.arpFrames dest ttl tmp) :
    s.FrameOk p.2 := by
  obtain ⟨d, hd, hframe⟩ := mem_arpFrames hp
  rw [hn] at hd
  exact ⟨dest, ttl, tmp, d.Mac, hframe, h0, h8, i, ⟨d, hd, rfl⟩, hbeyond⟩

lemma start_converging {host : N → Node} (hempty : ∀ i, (host i).routeTable = .empty) :
    (start host).Converging where
  frames := fun _ ha => absurd ha List.not_mem_nil
  routes := fun i k v hv => by
    change (host i).routeTable.find? k = some v at hv
    rw [hempty i, OrdMap.find?_empty] at hv
    cases hv

def DistinctMacs (host : N → Node) : Prop :=
  ∀ i j mac, (host i).HasMac mac → (host j).HasMac mac → i = j

def rank (s : Network N) (dest : UInt32) (i : N) : ℕ :=
  if (s.host i).owns dest then 9
  else match (s.host i).route dest with
    | some v => v.ttl.toNat
    | none => 0

lemma Converging.beyond {s : Network N} (hs : s.Converging) (hmacs : DistinctMacs s.host) {i j : N}
    {dest : UInt32} {v : RtValue} (hv : (s.host i).route dest = some v)
    (hj : (s.host j).HasMac v.dstMAC) : s.Beyond dest v.ttl j := by
  obtain ⟨m, hm, hbeyond⟩ := (hs.routes i _ v hv).ahead
  exact hmacs m j _ hm hj ▸ hbeyond

lemma Converging.rank_lt {s : Network N} (hs : s.Converging) (hmacs : DistinctMacs s.host)
    {dest : UInt32} (i j : N) (h : s.NextHop dest i j) : s.rank dest i < s.rank dest j := by
  obtain ⟨v, hv, hj⟩ := h
  have hroute := hs.routes i _ v hv
  have hnonneg := hroute.nonneg
  have hle := hroute.le
  have hbeyond := hs.beyond hmacs hv hj
  have hi : s.rank dest i = v.ttl.toNat := by
    rw [rank, if_neg (by simp [hroute.owns]), hv]
  rw [hi, rank]
  split
  · omega
  · rename_i hno
    obtain ⟨w, hw, hlt⟩ := hbeyond.resolve_left hno
    rw [hw]
    dsimp only
    omega

lemma Converging.rank_le {s : Network N} (hs : s.Converging) (dest : UInt32) (i : N) :
    s.rank dest i ≤ 9 := by
  rw [rank]
  split
  · exact le_refl _
  · split
    · rename_i v hv
      have hle := (hs.routes i _ v hv).le
      omega
    · exact Nat.zero_le _

variable [DecidableEq N] {wire : N → ℕ → List (N × ℕ)}

lemma step_improves {s t : Network N} {e : NetworkEvent N} (hs : s.OnlyArp)
    (h : step wire s e = some t) : Improves s t := by
  refine ⟨step_currDevice hs h, fun i dest v hv => ?_⟩
  cases e with
  | sendArp =>
    obtain ⟨sent, -, rfl⟩ := step_sendArp h
    exact ⟨v, hv, le_refl _⟩
  | deliver =>
    obtain ⟨a, -, hdel⟩ := step_deliver hs h
    cases hdel with
    | dropped => exact ⟨v, hv, le_refl _⟩
    | passedOn j hframe hreb howns hne hdev hfind =>
      by_cases hi : i = a.host
      · subst hi
        simp only [Function.update_self, Node.route, hfind]
        split
        · rename_i hk
          rw [← hk]
          exact ⟨_, rfl, RtValue.le_improved hv⟩
        · exact ⟨v, hv, le_refl _⟩
      · simp only [Function.update_of_ne hi]
        exact ⟨v, hv, le_refl _⟩

lemma step_converging {s t : Network N} {e : NetworkEvent N} (hs : s.Converging)
    (htimely : s.timely e = true) (h : step wire s e = some t) : t.Converging := by
  have himproves := step_improves hs.onlyArp h
  cases e with
  | sendArp i tmp =>
    obtain ⟨sent, rfl, rfl⟩ := step_sendArp h
    refine ⟨fun a ha => ?_, fun i k v hv => himproves.routeOk (hs.routes i k v hv)⟩
    rcases List.mem_append.mp ha with ha | ha
    · exact himproves.frameOk (hs.frames a ha)
    · obtain ⟨p, hp, hframe, -⟩ := mem_transits ha
      obtain ⟨d, hd, hp⟩ := List.mem_flatMap.mp hp
      have howns : (s.host i).owns d.IP = true :=
        List.any_eq_true.mpr ⟨d, hd, beq_self_eq_true d.IP⟩
      rw [hframe]
      exact frameOk_sent rfl (Or.inl howns) (by omega) (by omega) hp
  | deliver k tmp =>
    obtain ⟨a, ha, hdel⟩ := step_deliver hs.onlyArp h
    cases hdel with
    | dropped =>
      exact ⟨fun b hb => himproves.frameOk (hs.frames b (List.mem_of_mem_eraseIdx hb)),
        fun i k v hv => himproves.routeOk (hs.routes i k v hv)⟩
    | @passedOn src ttl tmp₁ tmp₂ mac n j hframe hreb howns hne hdev hfind =>
      have hpos := ofInt_sub_one (ttl_ne_zero ha htimely hreb hframe)
      obtain ⟨h8, hahead⟩ := (hframe ▸ hs.frames a (List.mem_of_getElem? ha)).wire
      generalize (UInt8.ofInt ttl).toNat = u at *
      refine ⟨fun b hb => ?_, fun i k v hv => ?_⟩
      · rcases List.mem_append.mp hb with hb | hb
        · exact himproves.frameOk (hs.frames b (List.mem_of_mem_eraseIdx hb))
        · obtain ⟨p, hp, hframe, -⟩ := mem_transits hb
          rw [hframe]
          refine frameOk_sent (himproves.currDevice a.host).symm (Or.inr ?_) (by omega)
            (by omega) hp
          -- the entry is the new one or an older one that is no worse
          simp only [Function.update_self, Node.route, hfind, if_true]
          have hle := RtValue.ttl_le_improved
            ((s.host a.host).routeTable.find? ⟨src, fullMask⟩) ⟨j, mac, u⟩
          dsimp only at hle
          exact ⟨_, rfl, by omega⟩
      · by_cases hi : i = a.host
        · subst hi
          simp only [Function.update_self, hfind] at hv
          split at hv
          · rename_i hk
            subst hk
            obtain rfl := Option.some.inj hv
            rcases RtValue.improved_eq_or
                ((s.host a.host).routeTable.find? ⟨src, fullMask⟩) ⟨j, mac, u⟩ with hnew | hkept
            · rw [hnew]
              exact himproves.routeOk ⟨rfl, howns, by dsimp only; omega, by dsimp only; omega, hahead⟩
            · exact himproves.routeOk (hs.routes a.host _ _ hkept)
          · exact himproves.routeOk (hs.routes a.host _ _ hv)
        · simp only [Function.update_of_ne hi] at hv
          exact himproves.routeOk (hs.routes i _ _ hv)

/-- Routes learnt from empty tables, in a run in which no frame with TTL 0 was delivered to a host
that re-broadcasts it. The next hop of a route owns the destination or has a route with a larger
TTL, and next hops lead to an owner without passing through any host twice. -/
theorem learned_routes_loop_free {host : N → Node} {es : List (NetworkEvent N)} {t : Network N}
    (hempty : ∀ i, (host i).routeTable = .empty) (hmacs : DistinctMacs host)
    (h : run (restrict (fun s e => timely s e = true) (step wire)) (start host) es = some t) :
    (∀ i j dest mask v, (t.host i).routeTable.find? ⟨dest, mask⟩ = some v →
      (t.host j).HasMac v.dstMAC → (t.host j).owns dest = true ∨
        ∃ w, (t.host j).routeTable.find? ⟨dest, mask⟩ = some w ∧ v.ttl < w.ttl) ∧
    (∀ i dest, ((t.host i).route dest).isSome → ∃ l, (i :: l).IsChain (t.NextHop dest) ∧
      (t.host ((i :: l).getLast (List.cons_ne_nil i l))).owns dest = true) ∧
    (∀ dest (l : List N), l.IsChain (t.NextHop dest) → l.Nodup) ∧
    ∀ dest i j j', t.NextHop dest i j → t.NextHop dest i j' → j = j' := by
  obtain ⟨hs, hdev⟩ : t.Converging ∧ ∀ i, (t.host i).currDevice = (host i).currDevice :=
    run_invariant (I := fun s => s.Converging ∧ ∀ i, (s.host i).currDevice = (host i).currDevice)
      (fun s e t hs h => by
        obtain ⟨htimely, hstep⟩ := restrict_eq_some.mp h
        exact ⟨step_converging hs.1 htimely hstep,
          fun i => (step_currDevice hs.1.onlyArp hstep i).trans (hs.2 i)⟩)
      ⟨start_converging hempty, fun _ => rfl⟩ h
  have hmacs' : DistinctMacs t.host := fun i j mac hi hj => hmacs i j mac
    (by rwa [Node.HasMac, ← hdev i]) (by rwa [Node.HasMac, ← hdev j])
  refine ⟨fun i j dest mask v hv hj => ?_, fun i dest hi => ?_, fun dest l hl => ?_,
    fun dest i j j' ⟨v, hv, hj⟩ ⟨w, hw, hj'⟩ => ?_⟩
  · obtain rfl : mask = fullMask := (hs.routes i _ v hv).mask
    exact hs.beyond hmacs' hv hj
  · refine exists_walk (P := fun i => (t.host i).owns dest = true ∨ ((t.host i).route dest).isSome)
      (G := fun i => (t.host i).owns dest = true) (hs.rank_lt hmacs')
      (fun i _ => hs.rank_le dest i) (fun i hi => hi.imp_right fun hroute => ?_) (Or.inr hi)
    obtain ⟨v, hv⟩ := Option.isSome_iff_exists.mp hroute
    obtain ⟨m, hm, hbeyond⟩ := (hs.routes i _ v hv).ahead
    exact ⟨m, ⟨v, hv, hm⟩, hbeyond.imp_right fun ⟨w, hw, _⟩ => hw ▸ rfl⟩
  · exact nodup_of_rank (hs.rank_lt hmacs') hl
  · obtain rfl := Option.some.inj (hv.symm.trans hw)
    exact hmacs' j j' _ hj hj'

/-- In the line, the third host learns the way to the first. -/
theorem learned_routes_loop_free_twoHops : ∃ t, run (step lineWire) (start lineHost)
      [.sendArp 0 0, .deliver 0 0, .deliver 1 0] = some t ∧
    ∃ l, (2 :: l).IsChain (t.NextHop 1) ∧
      (t.host ((2 :: l).getLast (List.cons_ne_nil 2 l))).owns 1 = true := by
  have hrun : run (restrict (fun s e => timely s e = true) (step lineWire)) (start lineHost)
      [.sendArp 0 0, .deliver 0 0, .deliver 1 0] = some _ :=
    (Option.some_get (by decide +kernel)).symm
  have hmacs : DistinctMacs lineHost := by
    rintro i j mac ⟨d, hd, hdmac⟩ ⟨e, he, hemac⟩
    have hall : ∀ i j, ∀ d ∈ (lineHost i).currDevice.devices,
        ∀ e ∈ (lineHost j).currDevice.devices, d.Mac = e.Mac → i = j := by decide
    exact hall i j d hd e he (hdmac.trans hemac.symm)
  have hempty : ∀ i, (lineHost i).routeTable = .empty := by
    intro i
    fin_cases i <;> rfl
  exact ⟨_, run_of_restrict hrun,
    (learned_routes_loop_free hempty hmacs hrun).2.1 2 1 (by decide +kernel)⟩

/-- Once the TTL has passed from 0 to 255, the second and the third host route the packets for the
first to each other. -/
theorem learned_routes_loop_free_fails : ∃ t, run (step lineWire) (start lineHost)
      (pingPong ++ [.deliver 5 0, .deliver 5 0]) = some t ∧
    t.NextHop 1 1 2 ∧ t.NextHop 1 2 1 :=
  ⟨_, (Option.some_get (by decide +kernel)).symm,
    ⟨_, (Option.some_get (by decide +kernel)).symm, by decide +kernel⟩,
    ⟨_, (Option.some_get (by decide +kernel)).symm, by decide +kernel⟩⟩

end Network

end ITCP
