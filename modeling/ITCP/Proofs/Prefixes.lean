import ITCP.Proofs.RoundTrip

/-!
# Routes to prefixes

`setRoutingTable` takes the prefix of a destination and its mask. A router sends a packet along the
entry with the longest mask among those that cover its destination. `sendIPPacket` finds an entry
only if it is for the destination itself.
-/

namespace ITCP
open Lib

/-- A call of `setRoutingTable`. -/
structure RouteCall where
  dest : UInt32
  mask : UInt32
  nextHopMAC : Mac
  device : String
  ttl : ℤ := 1024

/-- The destinations that agree with the key where its mask is set. -/
def RtKey.covers (k : RtKey) (dest : UInt32) : Prop := dest &&& k.mask = k.dest &&& k.mask

/-- How many bits of a mask are set. -/
def maskLength (mask : UInt32) : ℕ := (List.range 32).countP (fun i => mask.toNat.testBit i)

lemma maskLength_le (mask : UInt32) : maskLength mask ≤ maskLength fullMask := by
  have hfull : maskLength fullMask = 32 := by decide +kernel
  rw [hfull]
  exact List.countP_le_length.trans List.length_range.le

namespace Node

variable {n : Node} {dest mask : UInt32}

def install (n : Node) (c : RouteCall) : Node :=
  (n.setRoutingTable c.dest c.mask c.nextHopMAC c.device c.ttl).2

/-- A host with these devices after the calls `cs`. -/
def installed (devices : DeviceTable) (cs : List RouteCall) : Node :=
  cs.foldl install ⟨devices, .empty⟩

/-- A call that names no device changes nothing. -/
lemma install_cases (n : Node) (c : RouteCall) : n.install c = n ∨ ∃ d ∈ n.currDevice.devices,
    (n.install c).currDevice = n.currDevice ∧ ∀ k, (n.install c).routeTable.find? k =
      if k = ⟨c.dest, c.mask⟩ then some ⟨d.ID, c.nextHopMAC, c.ttl⟩ else n.routeTable.find? k := by
  by_cases hname : c.device ∈ n.currDevice.devices.map Device.Name
  · obtain ⟨d, hd, hdevice⟩ := List.mem_map.mp hname
    have hset := setRoutingTable_of_mem hd c.dest c.mask c.nextHopMAC c.ttl
    rw [hdevice] at hset
    exact Or.inr ⟨d, hd, hset⟩
  · refine Or.inl ?_
    rw [install, setRoutingTable_of_not_mem hname]

/-- The routes of the table lead through devices of the host. -/
def RoutesValid (n : Node) : Prop :=
  ∀ k v, n.routeTable.find? k = some v → ∃ d, n.getDevice v.deviceID = some d

lemma RoutesValid.install (hn : n.RoutesValid) (c : RouteCall) : (n.install c).RoutesValid := by
  rcases install_cases n c with heq | ⟨d, hd, hdev, hfind⟩
  · rw [heq]
    exact hn
  · intro k v hv
    rw [hfind k] at hv
    rw [getDevice, hdev]
    split_ifs at hv
    · obtain rfl := Option.some.inj hv
      exact ⟨d, getDevice_of_mem hd⟩
    · exact hn k v hv

lemma installed_routesValid (devices : DeviceTable) (cs : List RouteCall) :
    (installed devices cs).RoutesValid := by
  have hempty : (⟨devices, .empty⟩ : Node).RoutesValid := fun k v hv => by cases hv
  unfold installed
  generalize (⟨devices, .empty⟩ : Node) = n at hempty ⊢
  induction cs generalizing n with
  | nil => exact hempty
  | cons c cs ih => exact ih _ (hempty.install c)

/-! ### The lookup -/

/-- No entry that covers the destination has a longer mask. -/
structure Longest (n : Node) (dest : UInt32) (k : RtKey) (v : RtValue) : Prop where
  entry : n.routeTable.find? k = some v
  covers : k.covers dest
  longest : ∀ k' v', n.routeTable.find? k' = some v' → k'.covers dest →
    maskLength k'.mask ≤ maskLength k.mask

/-- An entry for the destination itself is the longest. -/
lemma longest_of_route {v : RtValue} (hv : n.routeTable.find? ⟨dest, fullMask⟩ = some v) :
    n.Longest dest ⟨dest, fullMask⟩ v :=
  ⟨hv, rfl, fun k' _ _ _ => maskLength_le k'.mask⟩

/-- The packets for a destination leave by the longest entry that covers it, and by all devices if
there is none. -/
structure HonoursPrefixes (n : Node) (dest : UInt32) : Prop where
  covered : ∀ k v, n.routeTable.find? k = some v → k.covers dest → ∃ k' v' d,
    n.Longest dest k' v' ∧ n.getDevice v'.deviceID = some d ∧
      n.lookForRoute dest fullMask = some [⟨v'.dstMAC, d⟩]
  uncovered : (∀ k v, n.routeTable.find? k = some v → ¬k.covers dest) →
    n.lookForRoute dest fullMask = n.broadcastHops

/-- There is a route for the destination itself. -/
def HasHostRoute (n : Node) (dest : UInt32) : Prop :=
  ∃ v, n.routeTable.find? ⟨dest, fullMask⟩ = some v

/-- The entry for the prefix says what is done without it: the host has one device, and the longest
entry sends to everyone behind it. -/
def FloodsAnyway (n : Node) (dest : UInt32) : Prop :=
  ∃ d k v, n.currDevice.devices = [d] ∧ n.Longest dest k v ∧ v.dstMAC = bcm

/-- A host honours the prefixes for a destination exactly when it has a route for the destination
itself, or no entry covers it, or the entry that covers it makes no difference. -/
theorem prefix_routing (devices : DeviceTable) (cs : List RouteCall) (hdest : dest ≠ 0xffffffff) :
    (installed devices cs).HonoursPrefixes dest ↔ (installed devices cs).HasHostRoute dest ∨
      (∀ k v, (installed devices cs).routeTable.find? k = some v → ¬k.covers dest) ∨
      (installed devices cs).FloodsAnyway dest := by
  have hvalid := installed_routesValid devices cs
  generalize installed devices cs = n at hvalid ⊢
  cases hroute : n.routeTable.find? ⟨dest, fullMask⟩ with
  | some v =>
    obtain ⟨d, hd⟩ := hvalid _ v hroute
    refine iff_of_true ⟨fun _ _ _ _ => ?_, fun hnone => ?_⟩ (Or.inl ⟨v, hroute⟩)
    · exact ⟨_, v, d, longest_of_route hroute, hd, lookForRoute_of_route hdest hroute hd⟩
    · exact absurd rfl (hnone _ v hroute)
  | none =>
    have hflood := lookForRoute_of_none hdest hroute
    constructor
    · intro h
      by_cases hcovered : ∀ k v, n.routeTable.find? k = some v → ¬k.covers dest
      · exact Or.inr (Or.inl hcovered)
      push Not at hcovered
      obtain ⟨k, v, hv, hk⟩ := hcovered
      obtain ⟨k', v', d, hlongest, hd, hlook⟩ := h.covered k v hv hk
      rw [hflood, broadcastHops_eq, Option.some.injEq] at hlook
      obtain ⟨d', hdevices, hhop⟩ := List.map_eq_singleton_iff.mp hlook
      exact Or.inr (Or.inr ⟨d', k', v', hdevices, hlongest, (congrArg NextHop.dstMAC hhop).symm⟩)
    · rintro (⟨v, hv⟩ | hnone | ⟨d, k, v, hdevices, hlongest, hbcm⟩)
      · rw [hroute] at hv
        cases hv
      · exact ⟨fun k v hv hk => absurd hk (hnone k v hv), fun _ => hflood⟩
      · -- the only device is that of the entry, so flooding is what the entry says
        obtain ⟨d', hd'⟩ := hvalid k v hlongest.entry
        have hd : d' = d := by
          have hmem := List.mem_of_getElem? hd'
          rw [hdevices] at hmem
          exact List.mem_singleton.mp hmem
        refine ⟨fun _ _ _ _ => ⟨k, v, d', hlongest, hd', ?_⟩, fun hnone => ?_⟩
        · rw [hflood, broadcastHops_eq, hdevices, hbcm, hd]
          rfl
        · exact absurd hlongest.covers (hnone k v hlongest.entry)

/-- A network of 256 addresses behind the first of two devices, and a single host behind the other. -/
def officeCalls : List RouteCall :=
  [⟨0x0002640a, 0x00ffffff, ⟨4, 0, 0, 0, 0, 0⟩, "eth0", 1024⟩,
    ⟨0x0703640a, fullMask, ⟨5, 0, 0, 0, 0, 0⟩, "eth1", 1024⟩]

/-- A host with a route of its own. -/
theorem prefix_routing_host :
    (installed relay.currDevice officeCalls).HonoursPrefixes 0x0703640a :=
  (prefix_routing relay.currDevice officeCalls (by decide)).mpr
    (Or.inl ⟨⟨1, ⟨5, 0, 0, 0, 0, 0⟩, 1024⟩, by decide +kernel⟩)

/-- Packets for a host of the network go out on both devices, and not to the router of the entry. -/
theorem prefix_routing_fails : ∃ hops,
    (installed relay.currDevice officeCalls).lookForRoute 0x0502640a fullMask = some hops ∧
    hops.map (fun h => (h.dstMAC, h.srcDevice.ID)) = [(bcm, 0), (bcm, 1)] ∧
    (installed relay.currDevice officeCalls).routeTable.find? ⟨0x0002640a, 0x00ffffff⟩ =
      some ⟨0, ⟨4, 0, 0, 0, 0, 0⟩, 1024⟩ ∧ RtKey.covers ⟨0x0002640a, 0x00ffffff⟩ 0x0502640a ∧
    ¬(installed relay.currDevice officeCalls).HonoursPrefixes 0x0502640a := by
  have hlook : (installed relay.currDevice officeCalls).lookForRoute 0x0502640a fullMask = some _ :=
    (Option.some_get (by decide +kernel)).symm
  have hentry : (installed relay.currDevice officeCalls).routeTable.find? ⟨0x0002640a, 0x00ffffff⟩ =
      some ⟨0, ⟨4, 0, 0, 0, 0, 0⟩, 1024⟩ := by decide +kernel
  have hcovers : RtKey.covers ⟨0x0002640a, 0x00ffffff⟩ 0x0502640a := by
    unfold RtKey.covers
    decide +kernel
  refine ⟨_, hlook, by decide +kernel, hentry, hcovers, fun h => ?_⟩
  obtain ⟨k, v, d, -, -, hhop⟩ := h.covered _ _ hentry hcovers
  rw [lookForRoute_of_none (by decide) (by decide +kernel), broadcastHops_eq,
    Option.some.injEq] at hhop
  have htwo : (installed relay.currDevice officeCalls).currDevice.devices.length = 2 := by
    decide +kernel
  have hone := congrArg List.length hhop
  rw [List.length_map, htwo] at hone
  cases hone

end Node

end ITCP
