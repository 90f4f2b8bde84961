import ITCP.Proofs.Forward
import ITCP.Proofs.RouteMap

/-!
# The device table

Through any calls of `addDeviceKernel`, `addIP` and `setRoutingTable` the devices have different
names and stand at the indices that are their IDs. So all loops that search for a name find the same
device, and the IDs in the routes are indices of devices.
-/

namespace ITCP
open Lib

section

variable {currDevice : List Device} {deviceName : String} {d : Device} {i : ℕ}

/-! ### One call -/

/-- `addDeviceKernel` appends one device at most, under the index that it returns. -/
structure Added (currDevice : List Device) (deviceName : String) (r : ℤ × List Device) : Prop where
  index : ∃ (i : ℕ) (d : Device), r.1 = i ∧ r.2[i]? = some d ∧ d.Name = deviceName
  kept : ∃ ds, r.2 = currDevice ++ ds ∧ ds.length ≤ 1
  known : deviceName ∈ currDevice.map Device.Name → r.2 = currDevice

lemma addDeviceKernel_added (h : (currDevice.map Device.Name).Nodup) (deviceName : String)
    (currMac : Mac) : Added currDevice deviceName (addDeviceKernel currDevice deviceName currMac) := by
  by_cases hname : deviceName ∈ currDevice.map Device.Name
  · obtain ⟨d, hd, rfl⟩ := List.mem_map.mp hname
    obtain ⟨i, hi⟩ := List.mem_iff_getElem?.mp hd
    rw [addDeviceKernel_of_getElem? h hi]
    exact ⟨⟨i, d, rfl, hi, rfl⟩, ⟨[], (List.append_nil _).symm, Nat.zero_le 1⟩, fun _ => rfl⟩
  · rw [addDeviceKernel_of_not_mem h hname]
    refine ⟨⟨currDevice.length, _, rfl, List.getElem?_concat_length, rfl⟩, ⟨_, rfl, le_rfl⟩, ?_⟩
    exact fun hmem => absurd hmem hname

lemma addIP_of_getElem? (h : (currDevice.map Device.Name).Nodup) (hd : currDevice[i]? = some d)
    (currIP : UInt32) :
    addIP currDevice d.Name currIP = currDevice.set i { d with IP := currIP } :=
  map_eq_set h hd fun d => { d with IP := currIP }

lemma addIP_of_not_mem (hname : deviceName ∉ currDevice.map Device.Name) (currIP : UInt32) :
    addIP currDevice deviceName currIP = currDevice := by
  refine (List.map_congr_left fun d hd => ?_).trans (List.map_id currDevice)
  have hne : deviceName ≠ d.Name := by
    rintro rfl
    exact hname (List.mem_map_of_mem hd)
  rw [if_neg hne, id_eq]

lemma getIP_eq (currDevice : List Device) (deviceName : String) : getIP currDevice deviceName =
    ((findKey Device.Name currDevice deviceName).map Device.IP).getD 0 := by
  unfold getIP findKey
  cases currDevice.find? (fun d => deviceName = d.Name) <;> rfl

/-- Names stay at their indices. -/
lemma names_prefix_register (h : (currDevice.map Device.Name).Nodup) (c : TableCall) :
    currDevice.map Device.Name <+: (register currDevice c).map Device.Name := by
  cases c with
  | addDeviceKernel deviceName currMac =>
    obtain ⟨ds, hds, -⟩ := (addDeviceKernel_added h deviceName currMac).kept
    rw [register, hds, List.map_append]
    exact List.prefix_append _ _
  | addIP deviceName currIP =>
    rw [register, map_addIP Device.Name fun _ _ => rfl]
  | setRoutingTable c => exact List.prefix_rfl

end

namespace Node

variable {n : Node} {c : SetRoute} {cs : List TableCall}

lemma tableCall_devices (n : Node) (c : TableCall) :
    (n.tableCall c).currDevice.devices = register n.currDevice.devices c := by
  cases c with
  | setRoutingTable c => exact congrArg DeviceTable.devices (setRoute_currDevice n c)
  | addDeviceKernel | addIP => rfl

lemma getDevice_tableCall {id : ℕ} {d : Device} (hd : n.getDevice id = some d) (c : TableCall) :
    ∃ d', (n.tableCall c).getDevice id = some d' ∧ d'.Name = d.Name := by
  obtain ⟨names, hnames⟩ := names_prefix_register n.currDevice.names c
  have hname : (n.currDevice.devices.map Device.Name)[id]? = some d.Name := by
    rw [List.getElem?_map, ← getDevice, hd, Option.map_some]
  obtain ⟨hlt, -⟩ := List.getElem?_eq_some_iff.mp hname
  rw [← List.getElem?_append_left hlt, hnames, ← tableCall_devices, List.getElem?_map] at hname
  exact Option.map_eq_some_iff.mp hname

/-! ### Routes -/

/-- The table has a route for the key, through the device of that name. -/
def Leads (n : Node) (k : RtKey) (deviceName : String) : Prop :=
  ∃ v d, n.routeTable.find? k = some v ∧ n.getDevice v.deviceID = some d ∧ d.Name = deviceName

lemma leads_setRoute (hname : c.device ∈ n.currDevice.devices.map Device.Name) :
    (n.setRoute c).2.Leads c.key c.device := by
  obtain ⟨d, hd, hname⟩ := List.mem_map.mp hname
  obtain ⟨hdev, hfind⟩ := setRoute_of_mem hd hname
  refine ⟨⟨d.ID, c.nextHopMAC, c.ttl⟩, d, by rw [hfind, if_pos rfl], ?_, hname⟩
  rw [getDevice, hdev]
  exact getDevice_of_mem hd

/-- A route leads through the device that some call of `setRoutingTable` for its key has named. -/
def Named (n : Node) (cs : List TableCall) (k : RtKey) (v : RtValue) : Prop :=
  ∃ c d, .setRoutingTable c ∈ cs ∧ c.key = k ∧ n.getDevice v.deviceID = some d ∧ d.Name = c.device

lemma Named.tableCall {k : RtKey} {v : RtValue} (h : n.Named cs k v) (c : TableCall) :
    (n.tableCall c).Named (cs ++ [c]) k v := by
  obtain ⟨c', d, hmem, hkey, hd, hname⟩ := h
  obtain ⟨d', hd', hname'⟩ := getDevice_tableCall hd c
  exact ⟨c', d', List.mem_append_left _ hmem, hkey, hd', hname'.trans hname⟩

/-- The routes after a call are those before it, and the one that the call sets. -/
lemma named_tableCall (hn : ∀ k v, n.routeTable.find? k = some v → n.Named cs k v) (c : TableCall)
    (k : RtKey) (v : RtValue) (hv : (n.tableCall c).routeTable.find? k = some v) :
    (n.tableCall c).Named (cs ++ [c]) k v := by
  cases c with
  | addDeviceKernel | addIP => exact (hn k v hv).tableCall _
  | setRoutingTable c =>
    by_cases hname : c.device ∈ n.currDevice.devices.map Device.Name
    · by_cases hk : k = c.key
      · subst hk
        obtain ⟨v', d, hv', hd, hname⟩ := leads_setRoute hname
        obtain rfl := Option.some.inj (hv'.symm.trans hv)
        exact ⟨c, d, List.mem_append_right _ List.mem_cons_self, rfl, hd, hname⟩
      · exact (hn k v ((setRoute_find?_of_ne n hk).symm.trans hv)).tableCall _
    · have hsame : n.tableCall (.setRoutingTable c) = n :=
        congrArg Prod.snd (setRoute_of_not_mem hname)
      rw [hsame] at hv
      exact (hn k v hv).tableCall _

/-- The calls for other keys leave a route alone, and names stay at their indices. -/
lemma Leads.tableCall {k : RtKey} {deviceName : String} (h : n.Leads k deviceName) {c : TableCall}
    (hc : ∀ c', c = .setRoutingTable c' → c'.key ≠ k) : (n.tableCall c).Leads k deviceName := by
  obtain ⟨v, d, hv, hd, hname⟩ := h
  obtain ⟨d', hd', hname'⟩ := getDevice_tableCall hd c
  refine ⟨v, d', ?_, hd', hname'.trans hname⟩
  cases c with
  | addDeviceKernel | addIP => exact hv
  | setRoutingTable c => exact (setRoute_find?_of_ne n (Ne.symm (hc c rfl))).trans hv

lemma Leads.foldl {k : RtKey} {deviceName : String} (h : n.Leads k deviceName)
    (hcs : ∀ c, .setRoutingTable c ∈ cs → c.key ≠ k) :
    (cs.foldl Node.tableCall n).Leads k deviceName := by
  induction cs generalizing n with
  | nil => exact h
  | cons c cs ih =>
    have hc : ∀ c', c = .setRoutingTable c' → c'.key ≠ k := by
      rintro c' rfl
      exact hcs c' List.mem_cons_self
    exact ih (h.tableCall hc) fun c' hc' => hcs c' (List.mem_cons_of_mem _ hc')

/-! ### Runs -/

/-- The two tables after the calls `cs`, the devices as the list `currDevice`. -/
structure Registered (cs : List TableCall) (currDevice : List Device) (n : Node) : Prop where
  table : n.currDevice.devices = currDevice
  names : (currDevice.map Device.Name).Nodup
  ids : ∀ (i : ℕ) (d : Device), currDevice[i]? = some d → d.ID = i
  added : ∀ deviceName currMac,
    Added currDevice deviceName (addDeviceKernel currDevice deviceName currMac)
  changed : ∀ (i : ℕ) (d : Device) (currIP : UInt32), currDevice[i]? = some d →
    addIP currDevice d.Name currIP = currDevice.set i { d with IP := currIP }
  unchanged : ∀ deviceName currIP, deviceName ∉ currDevice.map Device.Name →
    addIP currDevice deviceName currIP = currDevice
  found : ∀ d ∈ currDevice, findDeviceKernel currDevice d.Name = d.ID ∧
    n.getDeviceID d.Name = d.ID ∧ getIP currDevice d.Name = d.IP
  notFound : ∀ deviceName, deviceName ∉ currDevice.map Device.Name →
    findDeviceKernel currDevice deviceName = -1 ∧ n.getDeviceID deviceName = -1
  stored : ∀ (c : SetRoute), ∀ d ∈ currDevice, d.Name = c.device →
    ((n.setRoute c).2.routeTable.find? c.key).map RtValue.deviceID = some d.ID
  refused : ∀ c : SetRoute, c.device ∉ currDevice.map Device.Name → n.setRoute c = (-1, n)
  routes : ∀ k v, n.routeTable.find? k = some v → n.Named cs k v
  lasting : ∀ before c after, cs = before ++ .setRoutingTable c :: after →
    c.device ∈ (before.foldl register []).map Device.Name →
    (∀ c', .setRoutingTable c' ∈ after → c'.key ≠ c.key) → n.Leads c.key c.device

lemma foldl_register_devices (cs : List TableCall) :
    (cs.foldl tableCall start).currDevice.devices = cs.foldl register [] := by
  induction cs using List.reverseRecOn with
  | nil => rfl
  | append_singleton cs c ih =>
    rw [List.foldl_append, List.foldl_append, List.foldl_cons, List.foldl_cons, List.foldl_nil,
      List.foldl_nil, tableCall_devices, ih]

/-- Every route of a run leads through the device that a call has named for it. -/
lemma foldl_tableCall_named (cs : List TableCall) (k : RtKey) (v : RtValue)
    (hv : (cs.foldl tableCall start).routeTable.find? k = some v) :
    (cs.foldl tableCall start).Named cs k v := by
  induction cs using List.reverseRecOn generalizing k v with
  | nil => cases hv
  | append_singleton cs c ih =>
    rw [List.foldl_append, List.foldl_cons, List.foldl_nil] at hv ⊢
    exact named_tableCall ih c k v hv

lemma registered_foldl (cs : List TableCall) : Registered cs
    (cs.foldl tableCall start).currDevice.devices (cs.foldl tableCall start) := by
  have hnames := (cs.foldl tableCall start).currDevice.names
  constructor
  · rfl
  · exact hnames
  · exact fun i d hd => getDevice_ID hd
  · exact fun deviceName currMac => addDeviceKernel_added hnames deviceName currMac
  · exact fun i d currIP hd => addIP_of_getElem? hnames hd currIP
  · exact fun deviceName currIP hname => addIP_of_not_mem hname currIP
  · intro d hd
    refine ⟨getDeviceID_of_mem hd, getDeviceID_of_mem hd, ?_⟩
    rw [getIP_eq, findKey_of_mem hnames hd]
    rfl
  · exact fun deviceName hname => ⟨getDeviceID_of_not_mem hname, getDeviceID_of_not_mem hname⟩
  · intro c d hd hname
    rw [(setRoute_of_mem hd hname).2, if_pos rfl]
    rfl
  · exact fun c hname => setRoute_of_not_mem hname
  · exact foldl_tableCall_named cs
  · rintro before c after rfl hname hafter
    rw [← foldl_register_devices] at hname
    rw [List.foldl_append]
    exact (leads_setRoute hname).foldl hafter

/-- The devices have different names and stand at their IDs, and everything that names a device means
the one of that name. -/
theorem device_table (cs : List TableCall) :
    Registered cs (cs.foldl register []) (cs.foldl tableCall start) := by
  rw [← foldl_register_devices]
  exact registered_foldl cs

end Node

/-! ### Where the calls come from -/

/-- `s'` is what some calls make of `s`. -/
def ByCalls {σ : Type} (step : σ → TableCall → σ) (s s' : σ) : Prop :=
  ∃ cs : List TableCall, s' = cs.foldl step s

namespace ByCalls

variable {σ : Type} {step : σ → TableCall → σ} {s s' s'' : σ}

lemma refl (step : σ → TableCall → σ) (s : σ) : ByCalls step s s := ⟨[], rfl⟩

lemma trans (h : ByCalls step s s') (h' : ByCalls step s' s'') : ByCalls step s s'' := by
  obtain ⟨cs, rfl⟩ := h
  obtain ⟨cs', rfl⟩ := h'
  exact ⟨cs ++ cs', List.foldl_append.symm⟩

lemma call (step : σ → TableCall → σ) (s : σ) (c : TableCall) : ByCalls step s (step s c) := ⟨[c], rfl⟩

end ByCalls

lemma addAllDevice_byCalls {r r' : ℤ × List Device} {ifa : Ifaddrs}
    (h : addAllDevice r ifa = some r') : ByCalls register r.2 r'.2 := by
  obtain ⟨addr, -, h⟩ := Option.bind_eq_some_iff.mp h
  cases addr with
  | packet mac =>
    split_ifs at h
    · rw [← Option.some.inj h]
      exact .call register r.2 (.addDeviceKernel ifa.ifaName mac)
    · rw [← Option.some.inj h]
      exact .refl register r.2
  | inet | other =>
    rw [← Option.some.inj h]
    exact .refl register r.2

lemma addAllIP_byCalls {currDevice currDevice' : List Device} {ifa : Ifaddrs}
    (h : addAllIP currDevice ifa = some currDevice') : ByCalls register currDevice currDevice' := by
  obtain ⟨addr, -, h⟩ := Option.bind_eq_some_iff.mp h
  cases addr with
  | inet ip =>
    split_ifs at h
    · rw [← Option.some.inj h]
      exact .call register currDevice (.addIP ifa.ifaName ip)
    · rw [← Option.some.inj h]
      exact .refl register currDevice
  | packet | other =>
    rw [← Option.some.inj h]
    exact .refl register currDevice

/-- `addAll` fills the table by calls of `addDeviceKernel` and `addIP`. -/
lemma addAll_byCalls {currDevice currDevice' : List Device} {ifaddr : Option (List Ifaddrs)} {ret : ℤ}
    (h : addAll currDevice ifaddr = some (ret, currDevice')) :
    ByCalls register currDevice currDevice' := by
  cases ifaddr with
  | none =>
    obtain ⟨-, rfl⟩ := Prod.mk.inj (Option.some.inj h)
    exact .refl register currDevice
  | some ifas =>
    obtain ⟨⟨ret₁, devices⟩, hdevices, h⟩ := Option.bind_eq_some_iff.mp h
    obtain ⟨devices', hips, h⟩ := Option.bind_eq_some_iff.mp h
    obtain ⟨-, rfl⟩ := Prod.mk.inj (Option.some.inj h)
    rw [← run_eq_foldlM] at hdevices hips
    have hadded : ByCalls register currDevice devices :=
      run_invariant (I := fun r => ByCalls register currDevice r.2)
        (fun r ifa r' hr hstep => hr.trans (addAllDevice_byCalls hstep)) (.refl register _) hdevices
    exact run_invariant (fun l ifa l' hl hstep => hl.trans (addAllIP_byCalls hstep)) hadded hips

namespace Node

variable {n n' : Node} {id : ℕ} {tmp : UInt8}

/-- `recvArp` changes the tables by calls of `setRoutingTable` only. -/
lemma recvArp_byCalls {src mask : UInt32} {mac : Mac} {ttl : ℤ} {sent : List (ℕ × List UInt8)}
    (h : n.recvArp src mask id mac ttl tmp = some (n', sent)) : ByCalls tableCall n n' := by
  unfold recvArp at h
  split_ifs at h
  · obtain ⟨rfl, -⟩ := Prod.mk.inj (Option.some.inj h)
    exact .refl tableCall n
  obtain ⟨d, -, h⟩ := Option.bind_eq_some_iff.mp h
  obtain ⟨frames, -, h⟩ := Option.bind_eq_some_iff.mp h
  obtain ⟨rfl, -⟩ := Prod.mk.inj (Option.some.inj h)
  have hlearn : ∀ n : Node, ByCalls tableCall n (n.setRoutingTable src mask mac d.Name ttl).2 :=
    fun n => .call tableCall n (.setRoutingTable (.withTTL src mask mac d.Name ttl))
  split_ifs
  · exact hlearn n
  · refine List.foldlRecOn _ _ (motive := fun n' => ByCalls tableCall n n') (.refl tableCall n) ?_
    intro n' hn' t _
    split_ifs
    · exact hn'.trans (hlearn n')
    · exact hn'

lemma recvFrame_byCalls {frame : List UInt8} {out : Outcome}
    (h : n.recvFrame frame id tmp = some out) : ByCalls tableCall n out.node := by
  obtain ⟨hn, -⟩ | ⟨ip, -, ⟨-, mac, hrecv⟩ | ⟨-, hn, -⟩⟩ := recvFrame_outcome h
  · rw [hn]
    exact .refl tableCall n
  · exact recvArp_byCalls hrecv
  · rw [hn]
    exact .refl tableCall n

end Node

namespace Traffic

variable {N : Type} [DecidableEq N] {wire : N → ℕ → List (N × ℕ)} {s t : Network N}

lemma step_byCalls {e : TrafficEvent N} (h : step wire s e = some t) (i : N) :
    ByCalls Node.tableCall (s.host i) (t.host i) := by
  obtain ⟨j, sent, rfl⟩ | ⟨j, d, frame, rfl⟩ | ⟨k, a, tmp, out, -, hout, rfl⟩ := step_cases h
  · exact .refl Node.tableCall _
  · exact .refl Node.tableCall _
  · by_cases hi : i = a.host
    · subst hi
      dsimp only
      rw [Function.update_self]
      exact Node.recvFrame_byCalls hout
    · dsimp only
      rw [Function.update_of_ne hi]
      exact .refl Node.tableCall _

/-- Whatever traffic there is on a network, the tables of every host that come from calls stay so. -/
theorem run_registered {es : List (TrafficEvent N)} (h : run (step wire) s es = some t) (i : N)
    (hs : ByCalls Node.tableCall .start (s.host i)) :
    ∃ cs, Node.Registered cs (t.host i).currDevice.devices (t.host i) := by
  have hrun : ByCalls Node.tableCall .start (t.host i) :=
    run_invariant (I := fun t => ByCalls Node.tableCall .start (t.host i))
      (fun s e t hs hstep => hs.trans (step_byCalls hstep i)) hs h
  obtain ⟨cs, hcs⟩ := hrun
  rw [hcs]
  exact ⟨cs, Node.registered_foldl cs⟩

end Traffic

/-- A kernel whose devices `addAll` has found. -/
theorem addAll_registered {ifaddr : Option (List Ifaddrs)} {ret : ℤ} {currDevice : List Device}
    (h : addAll [] ifaddr = some (ret, currDevice)) :
    ∃ n : Node, ByCalls Node.tableCall .start n ∧ n.currDevice.devices = currDevice := by
  obtain ⟨cs, rfl⟩ := addAll_byCalls h
  exact ⟨_, ⟨cs, rfl⟩, Node.foldl_register_devices cs⟩

end ITCP
