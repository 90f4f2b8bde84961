import ITCP.Lib.LastWrite
import ITCP.Model.Devices
import ITCP.Proofs.Prefixes

/-!
# One map of routes

The overloads of `setRoutingTable` and the lookups that scan the table describe one map from
destinations and masks to routes: under every key the route of the last call for it that named a
device of the host.
-/

namespace ITCP
open Lib

/-- A route with its device. -/
structure Route where
  dstMAC : Mac
  device : Device
  ttl : ℤ

namespace Route

def hop (r : Route) : NextHop := ⟨r.dstMAC, r.device⟩

def value (r : Route) : RtValue := ⟨r.device.ID, r.dstMAC, r.ttl⟩

end Route

namespace SetRoute

/-- The call as one of `setRoutingTable` with a TTL. -/
def call (c : SetRoute) : RouteCall := ⟨c.key.dest, c.key.mask, c.nextHopMAC, c.device, c.ttl⟩

/-- What the call writes to the map of routes, if it names a device. -/
def write (currDevice : DeviceTable) (c : SetRoute) : Option (RtKey × Route) :=
  (findKey Device.Name currDevice.devices c.device).map
    (fun d => (c.key, ⟨c.nextHopMAC, d, c.ttl⟩))

end SetRoute

namespace Node

variable {n : Node} {c : SetRoute} {d : Device} {v : RtValue} {k : RtKey}

/-! ### The calls -/

lemma setRoute_eq (n : Node) (c : SetRoute) :
    n.setRoute c = n.setRoutingTable c.key.dest c.key.mask c.nextHopMAC c.device c.ttl := by
  cases c <;> rfl

lemma setRoute_of_not_mem (h : c.device ∉ n.currDevice.devices.map Device.Name) :
    n.setRoute c = (-1, n) := by
  rw [setRoute_eq, setRoutingTable_of_not_mem h]

lemma setRoute_fst (hd : d ∈ n.currDevice.devices) (hname : d.Name = c.device) :
    (n.setRoute c).1 = 0 := by
  have hid := getDeviceID_of_mem hd
  rw [setRoute_eq, setRoutingTable, ← hname, hid]
  dsimp only
  rw [if_neg (by omega)]
  split_ifs <;> rfl

lemma setRoute_of_mem (hd : d ∈ n.currDevice.devices) (hname : d.Name = c.device) :
    (n.setRoute c).2.currDevice = n.currDevice ∧ ∀ k, (n.setRoute c).2.routeTable.find? k =
      if k = c.key then some ⟨d.ID, c.nextHopMAC, c.ttl⟩ else n.routeTable.find? k := by
  rw [setRoute_eq, ← hname]
  exact setRoutingTable_of_mem hd c.key.dest c.key.mask c.nextHopMAC c.ttl

lemma setRoute_currDevice (n : Node) (c : SetRoute) :
    (n.setRoute c).2.currDevice = n.currDevice := by
  by_cases hname : c.device ∈ n.currDevice.devices.map Device.Name
  · obtain ⟨d, hd, hname⟩ := List.mem_map.mp hname
    exact (setRoute_of_mem hd hname).1
  · rw [setRoute_of_not_mem hname]

lemma setRoute_find?_of_ne (n : Node) (hk : k ≠ c.key) :
    (n.setRoute c).2.routeTable.find? k = n.routeTable.find? k := by
  by_cases hname : c.device ∈ n.currDevice.devices.map Device.Name
  · obtain ⟨d, hd, hname⟩ := List.mem_map.mp hname
    rw [(setRoute_of_mem hd hname).2, if_neg hk]
  · rw [setRoute_of_not_mem hname]

lemma RoutesValid.setRoute (hn : n.RoutesValid) (c : SetRoute) : (n.setRoute c).2.RoutesValid := by
  rw [setRoute_eq]
  exact hn.install c.call

/-! ### The lookups -/

/-- The route that the table holds under a key. -/
def routeAt (n : Node) (k : RtKey) : Option Route := do
  let v ← n.routeTable.find? k
  let d ← n.getDevice v.deviceID
  some ⟨v.dstMAC, d, v.ttl⟩

lemma routeAt_of_none (h : n.routeTable.find? k = none) : n.routeAt k = none := by
  rw [routeAt, h]
  rfl

lemma routeAt_of_some (h : n.routeTable.find? k = some v) (hd : n.getDevice v.deviceID = some d) :
    n.routeAt k = some ⟨v.dstMAC, d, v.ttl⟩ := by
  rw [routeAt, h, Option.bind_eq_bind, Option.bind_some, hd]
  rfl

/-- Whichever way the table of `n` is read, it holds the routes `m`. -/
structure Holds (n : Node) (m : RtKey → Option Route) : Prop where
  found : ∀ k, n.routeTable.find? k = (m k).map Route.value
  scanned : ∀ dest mask, n.myArpLookForRouteHops dest mask =
    some (((m ⟨dest, mask⟩).map Route.hop).toList, ((m ⟨dest, mask⟩).map Route.ttl).toList)
  routed : ∀ dest mask r, dest ≠ 0xffffffff → m ⟨dest, mask⟩ = some r →
    n.lookForRoute dest mask = some [r.hop]
  flooded : ∀ dest mask, dest ≠ 0xffffffff → m ⟨dest, mask⟩ = none →
    n.lookForRoute dest mask = some (n.currDevice.devices.map (fun d => ⟨bcm, d⟩))
  nonempty : ∀ dest mask, n.lookForRoute dest mask = some [] → n.currDevice.devices = []

lemma myArpLookForRouteHops_of_none {dest mask : UInt32}
    (h : n.routeTable.find? ⟨dest, mask⟩ = none) :
    n.myArpLookForRouteHops dest mask = some ([], []) := by
  rw [myArpLookForRouteHops, matchingRoutes_eq, myArpLookForRoute_eq, h]
  rfl

lemma myArpLookForRouteHops_of_some {dest mask : UInt32}
    (h : n.routeTable.find? ⟨dest, mask⟩ = some v) (hd : n.getDevice v.deviceID = some d) :
    n.myArpLookForRouteHops dest mask = some ([⟨v.dstMAC, d⟩], [v.ttl]) := by
  rw [myArpLookForRouteHops, matchingRoutes_eq, myArpLookForRoute_eq, h, Option.toList_some,
    List.mapM_cons, hd]
  rfl

lemma RoutesValid.find?_of_none (hn : n.RoutesValid) (hk : n.routeAt k = none) :
    n.routeTable.find? k = none := by
  cases hv : n.routeTable.find? k with
  | none => rfl
  | some v =>
    obtain ⟨d, hd⟩ := hn k v hv
    rw [routeAt_of_some hv hd] at hk
    cases hk

lemma RoutesValid.find?_of_some (hn : n.RoutesValid) {r : Route} (hr : n.routeAt k = some r) :
    n.routeTable.find? k = some r.value ∧ n.getDevice r.device.ID = some r.device := by
  cases hv : n.routeTable.find? k with
  | none =>
    rw [routeAt_of_none hv] at hr
    cases hr
  | some v =>
    obtain ⟨d, hd⟩ := hn k v hv
    rw [routeAt_of_some hv hd, Option.some.injEq] at hr
    subst hr
    rw [Route.value, getDevice_ID hd]
    exact ⟨rfl, hd⟩

/-- The ways to read a table whose routes lead through devices of the host agree. -/
lemma RoutesValid.holds (hn : n.RoutesValid) : n.Holds n.routeAt := by
  constructor
  · intro k
    cases hk : n.routeAt k with
    | none => exact hn.find?_of_none hk
    | some r => exact (hn.find?_of_some hk).1
  · intro dest mask
    cases hk : n.routeAt ⟨dest, mask⟩ with
    | none => exact myArpLookForRouteHops_of_none (hn.find?_of_none hk)
    | some r =>
      obtain ⟨hv, hd⟩ := hn.find?_of_some hk
      exact myArpLookForRouteHops_of_some hv hd
  · intro dest mask r hdest hk
    obtain ⟨hv, hd⟩ := hn.find?_of_some hk
    exact lookForRoute_of_route hdest hv hd
  · intro dest mask hdest hk
    rw [lookForRoute_of_none hdest (hn.find?_of_none hk), broadcastHops_eq]
  · intro dest mask h
    by_contra hne
    exact lookForRoute_ne_nil hne h rfl

/-! ### The map -/

/-- A call for which there is a device writes its route, and leaves the routes of other keys alone. -/
lemma routeAt_setRoute (hd : d ∈ n.currDevice.devices) (hname : d.Name = c.device) (k : RtKey) :
    (n.setRoute c).2.routeAt k =
      if k = c.key then some ⟨c.nextHopMAC, d, c.ttl⟩ else n.routeAt k := by
  obtain ⟨hdev, hfind⟩ := setRoute_of_mem hd hname
  have hget : ∀ id, (n.setRoute c).2.getDevice id = n.getDevice id := fun id => by
    rw [getDevice, getDevice, hdev]
  by_cases hk : k = c.key
  · have hv : (n.setRoute c).2.routeTable.find? k = some ⟨d.ID, c.nextHopMAC, c.ttl⟩ := by
      rw [hfind, if_pos hk]
    rw [if_pos hk, routeAt_of_some hv ((hget _).trans (getDevice_of_mem hd))]
  · have hv : (n.setRoute c).2.routeTable.find? k = n.routeTable.find? k := by
      rw [hfind, if_neg hk]
    rw [if_neg hk, routeAt, routeAt, hv]
    simp only [hget]

/-- A host with these devices after the calls `cs` of `setRoutingTable`. -/
def routesSet (devices : DeviceTable) (cs : List SetRoute) : Node :=
  cs.foldl (fun n c => (n.setRoute c).2) ⟨devices, .empty⟩

lemma routesSet_spec (devices : DeviceTable) (cs : List SetRoute) :
    ((routesSet devices cs).currDevice = devices ∧ (routesSet devices cs).RoutesValid) ∧
      ∀ k, (routesSet devices cs).routeAt k = lastWrite (SetRoute.write devices) cs k := by
  have hempty : (⟨devices, .empty⟩ : Node).RoutesValid := fun k v hv => by cases hv
  refine read_foldl_eq_lastWrite (fun n => n.currDevice = devices ∧ n.RoutesValid) routeAt
    ?_ ?_ ?_ ⟨rfl, hempty⟩ (fun k => rfl) cs
  · rintro n c ⟨hdev, hvalid⟩
    exact ⟨(setRoute_currDevice n c).trans hdev, hvalid.setRoute c⟩
  · rintro n c ⟨rfl, -⟩ hw k
    have hname : c.device ∉ n.currDevice.devices.map Device.Name :=
      findKey_eq_none.mp (Option.map_eq_none_iff.mp hw)
    rw [setRoute_of_not_mem hname]
  · rintro n c k' r ⟨rfl, -⟩ hw k
    obtain ⟨d, hd, hw⟩ := Option.map_eq_some_iff.mp hw
    obtain ⟨hd, hname⟩ := (findKey_eq_some n.currDevice.names).mp hd
    obtain ⟨rfl, rfl⟩ := Prod.mk.inj hw
    exact routeAt_setRoute hd hname k

/-- After any calls of `setRoutingTable` all lookups read one map, in which every key has the route of
the last call for it that named a device. A call that names none fails and changes nothing. -/
theorem routing_table_one_map (devices : DeviceTable) (cs : List SetRoute) :
    (routesSet devices cs).currDevice = devices ∧
    (∀ c : SetRoute, c.device ∉ devices.devices.map Device.Name →
      (routesSet devices cs).setRoute c = (-1, routesSet devices cs)) ∧
    (∀ c : SetRoute, c.device ∈ devices.devices.map Device.Name →
      ((routesSet devices cs).setRoute c).1 = 0) ∧
    (routesSet devices cs).Holds (lastWrite (SetRoute.write devices) cs) := by
  obtain ⟨⟨hdev, hvalid⟩, hread⟩ := routesSet_spec devices cs
  refine ⟨hdev, fun c hname => ?_, fun c hname => ?_, ?_⟩
  · exact setRoute_of_not_mem (hdev.symm ▸ hname)
  · obtain ⟨d, hd, hname⟩ := List.mem_map.mp hname
    exact setRoute_fst (hdev.symm ▸ hd) hname
  · rw [← funext hread]
    exact hvalid.holds

end Node

end ITCP
