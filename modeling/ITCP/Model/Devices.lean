import ITCP.Lib.Keyed
import ITCP.Model.Routing

/-!
# Registration

The functions that fill the two tables of `iTCP_kernel_t`: those on the list of devices as it is,
`addAll`, which calls them for the interfaces of the host, and the two overloads of
`setRoutingTable`. On a device table they keep its invariant.
-/

namespace ITCP
open Lib

/-- The loop keeps the last index with the name; without one there is a new device at the end. -/
def addDeviceKernel (currDevice : List Device) (deviceName : String) (currMac : Mac) :
    ℤ × List Device :=
  let (flagDevice, selectedIndex) := currDevice.zipIdx.foldl
    (fun (r : Bool × ℤ) d => if deviceName = d.1.Name then (true, (d.2 : ℤ)) else r) (false, -1)
  if !flagDevice then
    (currDevice.length, currDevice ++ [⟨currMac, 0, deviceName, currDevice.length⟩])
  else (selectedIndex, currDevice)

/-- `addIP` has no return statement, and nobody looks at a result. -/
def addIP (currDevice : List Device) (deviceName : String) (currIP : UInt32) : List Device :=
  currDevice.map (fun d => if deviceName = d.Name then { d with IP := currIP } else d)

def findDeviceKernel (currDevice : List Device) (deviceName : String) : ℤ :=
  currDevice.foldl (fun result d => if deviceName = d.Name then (d.ID : ℤ) else result) (-1)

/-- `getIP` stops at the first device with the name. -/
def getIP (currDevice : List Device) (deviceName : String) : UInt32 :=
  match currDevice.find? (fun d => deviceName = d.Name) with
  | some d => d.IP
  | none => 0

/-! ### The interfaces of the host -/

/-- The address of an interface, by its family. -/
inductive Sockaddr
  | packet (addr : Mac)
  | inet (addr : UInt32)
  | other

/-- An entry of the list that `getifaddrs` returns. It may have no address. -/
structure Ifaddrs where
  ifaName : String
  ifaAddr : Option Sockaddr

def Ifaddrs.isVirtual (ifa : Ifaddrs) : Bool := ifa.ifaName.toList.head? == some 'v'

/-- A turn of the first loop of `addAll`, with the number of devices it has counted. -/
def addAllDevice (r : ℤ × List Device) (ifa : Ifaddrs) : Option (ℤ × List Device) := do
  let addr ← ifa.ifaAddr
  match addr with
  | .packet mac =>
    if ifa.isVirtual then some (r.1 + 1, (addDeviceKernel r.2 ifa.ifaName mac).2) else some r
  | _ => some r

/-- A turn of the second loop of `addAll`. -/
def addAllIP (currDevice : List Device) (ifa : Ifaddrs) : Option (List Device) := do
  let addr ← ifa.ifaAddr
  match addr with
  | .inet ip => if ifa.isVirtual then some (addIP currDevice ifa.ifaName ip) else some currDevice
  | _ => some currDevice

/-- `addAll`, with what `getifaddrs` returns. -/
def addAll (currDevice : List Device) (ifaddr : Option (List Ifaddrs)) : Option (ℤ × List Device) :=
  match ifaddr with
  | none => some (0, currDevice)
  | some ifas => do
    let (ret, currDevice) ← ifas.foldlM addAllDevice (0, currDevice)
    let currDevice ← ifas.foldlM addAllIP currDevice
    some (ret, currDevice)

/-! ### Calls on the tables -/

/-- A call of `setRoutingTable`. -/
inductive SetRoute
  | withTTL (dest mask : UInt32) (nextHopMAC : Mac) (device : String) (ttl : ℤ)
  | withoutTTL (dest mask : UInt32) (nextHopMAC : Mac) (device : String)

namespace SetRoute

def key : SetRoute → RtKey
  | .withTTL dest mask _ _ _ | .withoutTTL dest mask _ _ => ⟨dest, mask⟩

def nextHopMAC : SetRoute → Mac
  | .withTTL _ _ nextHopMAC _ _ | .withoutTTL _ _ nextHopMAC _ => nextHopMAC

def device : SetRoute → String
  | .withTTL _ _ _ device _ | .withoutTTL _ _ _ device => device

def ttl : SetRoute → ℤ
  | .withTTL _ _ _ _ ttl => ttl
  | .withoutTTL _ _ _ _ => 1024

end SetRoute

def Node.setRoute (n : Node) : SetRoute → ℤ × Node
  | .withTTL dest mask nextHopMAC device ttl => n.setRoutingTable dest mask nextHopMAC device ttl
  | .withoutTTL dest mask nextHopMAC device => n.setRoutingTableDefault dest mask nextHopMAC device

/-- A call that changes the devices or the routes. -/
inductive TableCall
  | addDeviceKernel (deviceName : String) (currMac : Mac)
  | addIP (deviceName : String) (currIP : UInt32)
  | setRoutingTable (c : SetRoute)

/-- What a call does to the list of devices. -/
def register (currDevice : List Device) : TableCall → List Device
  | .addDeviceKernel deviceName currMac => (addDeviceKernel currDevice deviceName currMac).2
  | .addIP deviceName currIP => addIP currDevice deviceName currIP
  | .setRoutingTable _ => currDevice

/-! ### The invariant of a device table -/

section

variable {currDevice : List Device} {deviceName : String}

lemma map_name_zipIdx (currDevice : List Device) :
    currDevice.zipIdx.map (fun d => d.1.Name) = currDevice.map Device.Name := by
  rw [← List.zipIdx_map_fst 0 currDevice, List.map_map, List.zipIdx_map_fst]
  rfl

lemma addDeviceKernel_eq (h : (currDevice.map Device.Name).Nodup) (deviceName : String)
    (currMac : Mac) : addDeviceKernel currDevice deviceName currMac =
      match findKey (fun d => d.1.Name) currDevice.zipIdx deviceName with
      | some d => (d.2, currDevice)
      | none => (currDevice.length,
          currDevice ++ [⟨currMac, 0, deviceName, currDevice.length⟩]) := by
  rw [← map_name_zipIdx] at h
  unfold addDeviceKernel
  rw [foldl_eq_findKey h (fun d => (true, (d.2 : ℤ)))]
  cases findKey (fun d : Device × ℕ => d.1.Name) currDevice.zipIdx deviceName <;> rfl

lemma addDeviceKernel_of_not_mem (h : (currDevice.map Device.Name).Nodup)
    (hname : deviceName ∉ currDevice.map Device.Name) (currMac : Mac) :
    addDeviceKernel currDevice deviceName currMac = ((currDevice.length : ℤ),
      currDevice ++ [⟨currMac, 0, deviceName, currDevice.length⟩]) := by
  rw [← map_name_zipIdx] at hname
  rw [addDeviceKernel_eq h, findKey_eq_none.mpr hname]

lemma addDeviceKernel_of_getElem? (h : (currDevice.map Device.Name).Nodup) {i : ℕ} {d : Device}
    (hd : currDevice[i]? = some d) (currMac : Mac) :
    addDeviceKernel currDevice d.Name currMac = ((i : ℤ), currDevice) := by
  have hfind : findKey (fun d => d.1.Name) currDevice.zipIdx d.Name = some (d, i) :=
    findKey_of_mem (by rwa [map_name_zipIdx]) (List.mk_mem_zipIdx_iff_getElem?.mpr hd)
  rw [addDeviceKernel_eq h, hfind]

/-- A call of `addIP` leaves everything else as it is. -/
lemma map_addIP {β : Type} (f : Device → β) (hf : ∀ d ip, f { d with IP := ip } = f d)
    (currDevice : List Device) (deviceName : String) (currIP : UInt32) :
    (addIP currDevice deviceName currIP).map f = currDevice.map f := by
  unfold addIP
  rw [List.map_map]
  refine List.map_congr_left fun d _ => ?_
  rw [Function.comp_apply]
  split_ifs
  · exact hf d currIP
  · rfl

lemma register_names (h : (currDevice.map Device.Name).Nodup) (c : TableCall) :
    ((register currDevice c).map Device.Name).Nodup := by
  cases c with
  | addDeviceKernel deviceName currMac =>
    change ((addDeviceKernel currDevice deviceName currMac).2.map Device.Name).Nodup
    by_cases hname : deviceName ∈ currDevice.map Device.Name
    · obtain ⟨d, hd, rfl⟩ := List.mem_map.mp hname
      obtain ⟨i, hi⟩ := List.mem_iff_getElem?.mp hd
      rwa [addDeviceKernel_of_getElem? h hi]
    · rw [addDeviceKernel_of_not_mem h hname]
      exact nodup_concat h hname
  | addIP deviceName currIP =>
    change ((addIP currDevice deviceName currIP).map Device.Name).Nodup
    rwa [map_addIP Device.Name fun _ _ => rfl]
  | setRoutingTable c => exact h

lemma register_ids (h : (currDevice.map Device.Name).Nodup)
    (hids : currDevice.map Device.ID = List.range currDevice.length) (c : TableCall) :
    (register currDevice c).map Device.ID = List.range (register currDevice c).length := by
  cases c with
  | addDeviceKernel deviceName currMac =>
    change (addDeviceKernel currDevice deviceName currMac).2.map Device.ID =
      List.range (addDeviceKernel currDevice deviceName currMac).2.length
    by_cases hname : deviceName ∈ currDevice.map Device.Name
    · obtain ⟨d, hd, rfl⟩ := List.mem_map.mp hname
      obtain ⟨i, hi⟩ := List.mem_iff_getElem?.mp hd
      rwa [addDeviceKernel_of_getElem? h hi]
    · rw [addDeviceKernel_of_not_mem h hname, List.map_append, hids, List.length_append,
        List.length_singleton, List.range_succ]
      rfl
  | addIP deviceName currIP =>
    have hlength : (addIP currDevice deviceName currIP).length = currDevice.length :=
      List.length_map _
    change (addIP currDevice deviceName currIP).map Device.ID =
      List.range (addIP currDevice deviceName currIP).length
    rw [map_addIP Device.ID fun _ _ => rfl, hlength, hids]
  | setRoutingTable c => exact hids

end

namespace DeviceTable

def empty : DeviceTable := ⟨[], rfl, List.nodup_nil⟩

def register (t : DeviceTable) (c : TableCall) : DeviceTable where
  devices := ITCP.register t.devices c
  ids := register_ids t.names t.ids c
  names := register_names t.names c

end DeviceTable

namespace Node

/-- The kernel before the first call. -/
def start : Node := ⟨.empty, .empty⟩

/-- What a call does to the two tables. -/
def tableCall (n : Node) : TableCall → Node
  | .setRoutingTable c => (n.setRoute c).2
  | c => { n with currDevice := n.currDevice.register c }

end Node

end ITCP
