import Mathlib.Tactic
import ITCP.Lib.Keyed
import ITCP.Lib.OrdMap

/-!
# Devices and routes

The device table of `iTCP_kernel_t` and the routing table with the operations of `opRoutingTable`.
-/

namespace ITCP
open Lib

structure Mac where
  (b0 b1 b2 b3 b4 b5 : UInt8)
  deriving DecidableEq

def Mac.bytes (m : Mac) : List UInt8 := [m.b0, m.b1, m.b2, m.b3, m.b4, m.b5]

def macAt (l : List UInt8) (off : ℕ) : Option Mac :=
  match l.drop off with
  | b0 :: b1 :: b2 :: b3 :: b4 :: b5 :: _ => some ⟨b0, b1, b2, b3, b4, b5⟩
  | _ => none

/-- The address to which broadcast frames are sent. -/
def bcm : Mac := ⟨0xff, 0xff, 0xff, 0xff, 0xff, 0xff⟩

structure Device where
  Mac : Mac
  IP : UInt32
  Name : String
  ID : ℕ
  deriving DecidableEq

/-- `currDevice`: a device is found under its ID, and names are not used twice. -/
structure DeviceTable where
  devices : List Device
  ids : devices.map Device.ID = List.range devices.length
  names : (devices.map Device.Name).Nodup

/-- A destination and its mask; the keys of the table are ordered like pairs of numbers. -/
structure RtKey where
  dest : UInt32
  mask : UInt32

def RtKey.order (k : RtKey) : ℕ ×ₗ ℕ := toLex (k.dest.toNat, k.mask.toNat)

lemma RtKey.order_injective : Function.Injective RtKey.order := by
  intro k k' h
  obtain ⟨hd, hm⟩ := Prod.mk.inj (toLex.injective h)
  cases k
  cases k'
  rw [RtKey.mk.injEq]
  exact ⟨UInt32.toNat_inj.mp hd, UInt32.toNat_inj.mp hm⟩

instance : LinearOrder RtKey := LinearOrder.lift' RtKey.order RtKey.order_injective

structure RtValue where
  deviceID : ℕ
  dstMAC : Mac
  ttl : ℤ
  deriving DecidableEq

structure Node where
  currDevice : DeviceTable
  routeTable : OrdMap RtKey RtValue

structure NextHop where
  dstMAC : Mac
  srcDevice : Device

/-- The mask of a route to a single host. -/
def fullMask : UInt32 := 0xffffffff

namespace Node

variable (n : Node)

def getDevice (id : ℕ) : Option Device := n.currDevice.devices[id]?

/-- `getDeviceID`: `-1` for an unknown name. -/
def getDeviceID (name : String) : ℤ :=
  n.currDevice.devices.foldl (fun ret d => if name = d.Name then (d.ID : ℤ) else ret) (-1)

/-- The host has a device with this address. -/
def owns (ip : UInt32) : Bool := n.currDevice.devices.any (fun d => d.IP == ip)

/-- `setRoutingTable` with an explicit TTL. -/
def setRoutingTable (dest mask : UInt32) (nextHopMAC : Mac) (device : String) (ttl : ℤ) :
    ℤ × Node :=
  let deviceID := n.getDeviceID device
  if deviceID < 0 then (-1, n)
  else
    let value : RtValue := ⟨deviceID.toNat, nextHopMAC, ttl⟩
    if (n.routeTable.find? ⟨dest, mask⟩).isSome then
      (0, { n with routeTable := n.routeTable.modify ⟨dest, mask⟩ (fun _ => value) })
    else (0, { n with routeTable := n.routeTable.insert ⟨dest, mask⟩ value })

/-- The overload of `setRoutingTable` without a TTL. -/
def setRoutingTableDefault (dest mask : UInt32) (nextHopMAC : Mac) (device : String) : ℤ × Node :=
  n.setRoutingTable dest mask nextHopMAC device 1024

/-- One hop for each device, to everyone behind it. -/
def broadcastHops : Option (List NextHop) :=
  n.currDevice.devices.mapM (fun d => (n.getDevice d.ID).map (fun s => ⟨bcm, s⟩))

/-- The entries for exactly this destination and mask, in the order of the table. -/
def matchingRoutes (dest mask : UInt32) : List RtValue :=
  (n.routeTable.entries.filter (fun a => dest = a.1.dest ∧ mask = a.1.mask)).map Prod.snd

def lookForRoute (dest mask : UInt32) : Option (List NextHop) :=
  if dest = 0xffffffff then n.broadcastHops
  else do
    let ret ← (n.matchingRoutes dest mask).mapM
      (fun v => (n.getDevice v.deviceID).map (fun s => (⟨v.dstMAC, s⟩ : NextHop)))
    if ret ≠ [] then some ret else n.broadcastHops

/-- The TTLs that `myArpLookForRoute` returns. -/
def myArpLookForRoute (dest mask : UInt32) : List ℤ :=
  (n.matchingRoutes dest mask).map RtValue.ttl

/-- Both results of `myArpLookForRoute`: the hops and their TTLs. -/
def myArpLookForRouteHops (dest mask : UInt32) : Option (List NextHop × List ℤ) := do
  let ret ← (n.matchingRoutes dest mask).mapM
    (fun v => (n.getDevice v.deviceID).map (fun s => (⟨v.dstMAC, s⟩ : NextHop)))
  some (ret, n.myArpLookForRoute dest mask)

/-! ### The tables -/

variable {n}

lemma getDevice_ID {id : ℕ} {d : Device} (h : n.getDevice id = some d) : d.ID = id := by
  have hid : (n.currDevice.devices.map Device.ID)[id]? = some d.ID := by
    rw [List.getElem?_map, ← getDevice, h, Option.map_some]
  rw [n.currDevice.ids] at hid
  obtain ⟨hlt, heq⟩ := List.getElem?_eq_some_iff.mp hid
  rw [← heq, List.getElem_range]

lemma getDevice_of_mem {d : Device} (h : d ∈ n.currDevice.devices) : n.getDevice d.ID = some d := by
  obtain ⟨i, hi, rfl⟩ := List.getElem_of_mem h
  have hget : n.getDevice i = some n.currDevice.devices[i] := List.getElem?_eq_getElem hi
  rw [getDevice_ID hget, hget]

lemma owns_of_getDevice {id : ℕ} {d : Device} (h : n.getDevice id = some d) : n.owns d.IP = true :=
  List.any_eq_true.mpr ⟨d, List.mem_of_getElem? h, beq_self_eq_true d.IP⟩

lemma mapM_eq_some_map {α β : Type*} {f : α → Option β} {g : α → β} {l : List α}
    (h : ∀ a ∈ l, f a = some (g a)) : l.mapM f = some (l.map g) := by
  induction l with
  | nil => rfl
  | cons a l ih =>
    rw [List.mapM_cons, h a List.mem_cons_self, ih fun b hb => h b (List.mem_cons_of_mem _ hb)]
    rfl

lemma mapM_cons_eq_some {α β : Type*} {f : α → Option β} {a : α} {l : List α} {r : List β}
    (h : (a :: l).mapM f = some r) : ∃ b r', f a = some b ∧ l.mapM f = some r' ∧ r = b :: r' := by
  rw [List.mapM_cons] at h
  obtain ⟨b, hb, h⟩ := Option.bind_eq_some_iff.mp h
  obtain ⟨r', hr, h⟩ := Option.bind_eq_some_iff.mp h
  exact ⟨b, r', hb, hr, (Option.some.inj h).symm⟩

lemma mapM_isSome {α β : Type*} {f : α → Option β} {l : List α} :
    (l.mapM f).isSome ↔ ∀ a ∈ l, (f a).isSome := by
  induction l with
  | nil => exact iff_of_true rfl (List.forall_mem_nil _)
  | cons a l ih =>
    rw [List.forall_mem_cons, ← ih, List.mapM_cons]
    cases f a with
    | none => exact iff_of_false Bool.false_ne_true fun h => Bool.false_ne_true h.1
    | some b => cases l.mapM f <;> simp

lemma mapM_eq_some_imp {α β : Type*} {f : α → Option β} {l : List α} {r : List β}
    (h : l.mapM f = some r) : r.length = l.length ∧ ∀ b ∈ r, ∃ a ∈ l, f a = some b := by
  induction l generalizing r with
  | nil =>
    obtain rfl := Option.some.inj h
    exact ⟨rfl, fun b hb => absurd hb List.not_mem_nil⟩
  | cons a l ih =>
    obtain ⟨b, r, hb, hr, rfl⟩ := mapM_cons_eq_some h
    obtain ⟨hlen, hmem⟩ := ih hr
    refine ⟨congrArg (· + 1) hlen, fun c hc => ?_⟩
    rcases List.mem_cons.mp hc with rfl | hc
    · exact ⟨a, List.mem_cons_self, hb⟩
    · obtain ⟨a', ha', hf⟩ := hmem c hc
      exact ⟨a', List.mem_cons_of_mem _ ha', hf⟩

lemma map_eq_of_mapM {α β γ : Type*} {f : α → Option β} {g : β → γ} {k : α → γ} {l : List α}
    {r : List β} (h : l.mapM f = some r) (hf : ∀ a b, f a = some b → g b = k a) :
    r.map g = l.map k := by
  induction l generalizing r with
  | nil =>
    obtain rfl := Option.some.inj h
    rfl
  | cons a l ih =>
    obtain ⟨b, r, hb, hr, rfl⟩ := mapM_cons_eq_some h
    rw [List.map_cons, List.map_cons, hf a b hb, ih hr]

lemma broadcastHops_eq (n : Node) :
    n.broadcastHops = some (n.currDevice.devices.map (fun d => ⟨bcm, d⟩)) :=
  mapM_eq_some_map fun d hd => by rw [getDevice_of_mem hd, Option.map_some]

/-- The last device with the name is the first. -/
lemma getDeviceID_eq (n : Node) (name : String) : n.getDeviceID name =
    ((findKey Device.Name n.currDevice.devices name).map (fun d => (d.ID : ℤ))).getD (-1) :=
  foldl_eq_findKey n.currDevice.names _ _

lemma getDeviceID_of_mem {d : Device} (h : d ∈ n.currDevice.devices) :
    n.getDeviceID d.Name = d.ID := by
  rw [getDeviceID_eq, findKey_of_mem n.currDevice.names h]
  rfl

lemma getDeviceID_of_not_mem {name : String} (h : name ∉ n.currDevice.devices.map Device.Name) :
    n.getDeviceID name = -1 := by
  rw [getDeviceID_eq, findKey_eq_none.mpr h]
  rfl

/-- A call that names no device fails and changes nothing. -/
lemma setRoutingTable_of_not_mem {name : String} (h : name ∉ n.currDevice.devices.map Device.Name)
    (dest mask : UInt32) (m : Mac) (ttl : ℤ) : n.setRoutingTable dest mask m name ttl = (-1, n) := by
  unfold setRoutingTable
  rw [getDeviceID_of_not_mem h]
  rfl

lemma setRoutingTable_of_mem {d : Device} (h : d ∈ n.currDevice.devices) (dest mask : UInt32)
    (m : Mac) (ttl : ℤ) :
    ((n.setRoutingTable dest mask m d.Name ttl).2).currDevice = n.currDevice ∧
      ∀ k, ((n.setRoutingTable dest mask m d.Name ttl).2).routeTable.find? k =
        if k = ⟨dest, mask⟩ then some ⟨d.ID, m, ttl⟩ else n.routeTable.find? k := by
  have hid := getDeviceID_of_mem h
  unfold setRoutingTable
  simp only [hid, Int.toNat_natCast]
  rw [if_neg (by omega)]
  cases hf : n.routeTable.find? ⟨dest, mask⟩ with
  | none =>
    rw [if_neg (by simp)]
    refine ⟨rfl, fun k => ?_⟩
    rw [OrdMap.find?_insert, hf, Option.getD_none]
  | some v =>
    rw [if_pos (by rfl)]
    refine ⟨rfl, fun k => ?_⟩
    rw [OrdMap.find?_modify, hf, Option.map_some]

/-- There is at most one entry for a destination and a mask. -/
lemma matchingRoutes_eq (n : Node) (dest mask : UInt32) :
    n.matchingRoutes dest mask = (n.routeTable.find? ⟨dest, mask⟩).toList := by
  have hkey : ∀ a : RtKey × RtValue, decide (dest = a.1.dest ∧ mask = a.1.mask) =
      decide (⟨dest, mask⟩ = a.1) := by
    rintro ⟨⟨dest', mask'⟩, v⟩
    simp only [RtKey.mk.injEq]
  unfold matchingRoutes
  simp only [hkey]
  rw [OrdMap.find?_eq_findKey, filter_eq_findKey n.routeTable.keys_nodup]
  cases findKey Prod.fst n.routeTable.entries ⟨dest, mask⟩ <;> rfl

lemma myArpLookForRoute_eq (n : Node) (dest mask : UInt32) :
    n.myArpLookForRoute dest mask =
      ((n.routeTable.find? ⟨dest, mask⟩).map RtValue.ttl).toList := by
  rw [myArpLookForRoute, matchingRoutes_eq]
  cases n.routeTable.find? ⟨dest, mask⟩ <;> rfl

end Node

end ITCP
