import ITCP.Lib.Best
import ITCP.Lib.Run
import ITCP.Proofs.Broadcast
import ITCP.Proofs.RoundTrip

/-!
# Route learning

The calls of `recvArp` at one host keep, for each address that is not its own, the first of the best
routes they were told, where a route that was there before counts as the first.
-/

namespace ITCP
open Lib

/-- A call of `recvArp` with the full mask. The last field is a byte that nobody has written. -/
structure ArpCall where
  srcIP : UInt32
  ID : ℕ
  srcMac : Mac
  ttl : UInt8
  tmp : UInt8

namespace ArpCall

/-- The route that the call offers. -/
def value (c : ArpCall) : RtValue := ⟨c.ID, c.srcMac, c.ttl.toNat⟩

/-- What the calls `cs` for one address make of the route `old`. -/
structure Learnt (old : Option RtValue) (cs : List ArpCall) (new : Option RtValue) : Prop where
  nothing : cs = [] → new = old
  kept : ∀ v, old = some v → (∀ c ∈ cs, (c.ttl.toNat : ℤ) ≤ v.ttl) → new = some v
  learnt : cs ≠ [] → (∀ v, old = some v → ∃ c ∈ cs, v.ttl < c.ttl.toNat) →
    ∃ before c after, cs = before ++ c :: after ∧ (∀ b ∈ before, b.ttl < c.ttl) ∧
      (∀ b ∈ after, b.ttl ≤ c.ttl) ∧ new = some c.value

/-- The calls for an address, in their order. -/
def callsFor (cs : List ArpCall) (dest : UInt32) : List ArpCall := cs.filter (fun c => c.srcIP = dest)

lemma improved_eq_keepBest (old : Option RtValue) (new : RtValue) :
    RtValue.improved old new = keepBest RtValue.ttl old new := by
  cases old <;> rfl

lemma value_ttl_le {b c : ArpCall} : b.value.ttl ≤ c.value.ttl ↔ b.ttl ≤ c.ttl := by
  rw [UInt8.le_iff_toNat_le]
  exact Int.ofNat_le

lemma value_ttl_lt {b c : ArpCall} : b.value.ttl < c.value.ttl ↔ b.ttl < c.ttl := by
  rw [UInt8.lt_iff_toNat_lt]
  exact Int.ofNat_lt

/-- The first of the best calls offers the first of the best routes. -/
lemma exists_of_firstBest {cs : List ArpCall} {v : RtValue}
    (h : FirstBest RtValue.ttl (cs.map value) v) : ∃ before c after, cs = before ++ c :: after ∧
      (∀ b ∈ before, b.ttl < c.ttl) ∧ (∀ b ∈ after, b.ttl ≤ c.ttl) ∧ v = c.value := by
  obtain ⟨before', after', hsplit, hbefore, hafter⟩ := h
  obtain ⟨before, rest, rfl, rfl, hrest⟩ := List.map_eq_append_iff.mp hsplit
  obtain ⟨c, after, rfl, rfl, rfl⟩ := List.map_eq_cons_iff.mp hrest
  exact ⟨before, c, after, rfl,
    fun b hb => value_ttl_lt.mp (hbefore _ (List.mem_map_of_mem hb)),
    fun b hb => value_ttl_le.mp (hafter _ (List.mem_map_of_mem hb)), rfl⟩

lemma learnt_keepBests (old : Option RtValue) (cs : List ArpCall) :
    Learnt old cs (keepBests RtValue.ttl old (cs.map value)) := by
  cases old with
  | none =>
    refine ⟨fun h => by rw [h]; rfl, fun v h => absurd h (by simp), fun hne _ => ?_⟩
    obtain ⟨c, cs, rfl⟩ := List.exists_cons_of_ne_nil hne
    obtain ⟨v, hv, hbest⟩ := keepBests_none RtValue.ttl c.value (cs.map value)
    rw [← List.map_cons] at hbest
    obtain ⟨before, c', after, hsplit, hbefore, hafter, rfl⟩ := exists_of_firstBest hbest
    exact ⟨before, c', after, hsplit, hbefore, hafter, hv⟩
  | some u =>
    obtain ⟨v, hv, hbest⟩ := keepBests_some RtValue.ttl u (cs.map value)
    have hcall : ∀ c ∈ cs, (c.ttl.toNat : ℤ) ≤ v.ttl := fun c hc =>
      hbest.le (List.mem_cons_of_mem _ (List.mem_map_of_mem hc))
    refine ⟨fun h => by rw [h]; rfl, fun w hw hle => ?_, fun _ hlt => ?_⟩
    · obtain rfl := Option.some.inj hw
      rcases hbest.of_cons with ⟨rfl, -⟩ | ⟨hbetter, hrest⟩
      · exact hv
      · obtain ⟨c, hc, rfl⟩ := List.mem_map.mp hrest.mem
        exact absurd hbetter (not_lt.mpr (hle c hc))
    · obtain ⟨c, hc, hlt⟩ := hlt u rfl
      rcases hbest.of_cons with ⟨rfl, -⟩ | ⟨-, hrest⟩
      · exact absurd hlt (not_lt.mpr (hcall c hc))
      · obtain ⟨before, c', after, hsplit, hbefore, hafter, rfl⟩ := exists_of_firstBest hrest
        exact ⟨before, c', after, hsplit, hbefore, hafter, hv⟩

end ArpCall

namespace Node

open ArpCall

variable {n n' : Node} {c : ArpCall} {cs : List ArpCall}

/-- A call of `recvArp`, without the packets it sends. -/
def learn (n : Node) (c : ArpCall) : Option Node :=
  (n.recvArp c.srcIP fullMask c.ID c.srcMac c.ttl.toNat c.tmp).map Prod.fst

lemma owns_congr (h : n'.currDevice = n.currDevice) (ip : UInt32) : n'.owns ip = n.owns ip := by
  rw [owns, owns, h]

/-- A call keeps the better of the old route and the one it offers, for addresses of others. -/
lemma learn_eq (hid : c.ID < n.currDevice.devices.length) : ∃ n', n.learn c = some n' ∧
    n'.currDevice = n.currDevice ∧ ∀ k, n'.routeTable.find? k =
      if k = ⟨c.srcIP, fullMask⟩ ∧ n.owns c.srcIP = false
        then some (keepBest RtValue.ttl (n.routeTable.find? k) c.value)
        else n.routeTable.find? k := by
  cases howns : n.owns c.srcIP with
  | true =>
    refine ⟨n, ?_, rfl, fun k => by simp⟩
    rw [learn, recvArp, if_pos howns, Option.map_some]
  | false =>
    have hd : n.getDevice c.ID = some n.currDevice.devices[c.ID] := List.getElem?_eq_getElem hid
    obtain ⟨n', hn', hdev, hfind⟩ := recvArp_eq hd howns fullMask c.srcMac c.ttl.toNat c.tmp
    refine ⟨n', by rw [learn, hn', Option.map_some], hdev, fun k => ?_⟩
    rw [hfind k, getDevice_ID hd, improved_eq_keepBest]
    by_cases hk : k = ⟨c.srcIP, fullMask⟩
    · rw [if_pos hk, if_pos ⟨hk, rfl⟩, hk]
      rfl
    · rw [if_neg hk, if_neg fun h => hk h.1]

/-- After any number of calls every route to somebody else is the first of the best. -/
lemma run_learn_eq (hid : ∀ c ∈ cs, c.ID < n.currDevice.devices.length) :
    ∃ n', run learn n cs = some n' ∧ n'.currDevice = n.currDevice ∧ ∀ k, n'.routeTable.find? k =
      if k.mask = fullMask ∧ n.owns k.dest = false
        then keepBests RtValue.ttl (n.routeTable.find? k) ((callsFor cs k.dest).map value)
        else n.routeTable.find? k := by
  induction cs generalizing n with
  | nil => exact ⟨n, rfl, rfl, fun k => by simp [callsFor, keepBests]⟩
  | cons c cs ih =>
    obtain ⟨n₁, hn₁, hdev₁, hfind₁⟩ := learn_eq (hid c List.mem_cons_self)
    obtain ⟨n', hn', hdev, hfind⟩ := ih fun c' hc' => by
      rw [hdev₁]
      exact hid c' (List.mem_cons_of_mem _ hc')
    refine ⟨n', run_cons_eq_some.mpr ⟨n₁, hn₁, hn'⟩, hdev.trans hdev₁, fun k => ?_⟩
    rw [hfind k, hfind₁ k, owns_congr hdev₁]
    by_cases hk : k.mask = fullMask ∧ n.owns k.dest = false
    · rw [if_pos hk, if_pos hk]
      by_cases hc : c.srcIP = k.dest
      · have hkey : k = ⟨c.srcIP, fullMask⟩ := by rw [hc, ← hk.1]
        have hfor : callsFor (c :: cs) k.dest = c :: callsFor cs k.dest :=
          List.filter_cons_of_pos (by simpa using hc)
        rw [if_pos ⟨hkey, hc ▸ hk.2⟩, hfor]
        rfl
      · have hkey : k ≠ ⟨c.srcIP, fullMask⟩ := fun h => hc (by rw [h])
        have hfor : callsFor (c :: cs) k.dest = callsFor cs k.dest :=
          List.filter_cons_of_neg (by simpa using hc)
        rw [if_neg fun h => hkey h.1, hfor]
    · have hother : ¬(k = ⟨c.srcIP, fullMask⟩ ∧ n.owns c.srcIP = false) := by
        rintro ⟨rfl, howns⟩
        exact hk ⟨rfl, howns⟩
      rw [if_neg hk, if_neg hk, if_neg hother]

/-- What the calls `cs` leave of the table of `n`, and what any other order of them leaves. -/
structure Learns (n : Node) (cs : List ArpCall) (n' : Node) : Prop where
  devices : n'.currDevice = n.currDevice
  routes : ∀ dest, n.owns dest = false → Learnt (n.routeTable.find? ⟨dest, fullMask⟩)
    (callsFor cs dest) (n'.routeTable.find? ⟨dest, fullMask⟩)
  others : ∀ k, (k.mask = fullMask → n.owns k.dest = true) →
    n'.routeTable.find? k = n.routeTable.find? k
  rises : ∀ k v, n.routeTable.find? k = some v →
    ∃ v', n'.routeTable.find? k = some v' ∧ v.ttl ≤ v'.ttl
  manual : ∀ k v, n.routeTable.find? k = some v → v.ttl = 1024 → n'.routeTable.find? k = some v
  reordered : ∀ cs', cs.Perm cs' → ∃ n'', run learn n cs' = some n'' ∧
    ∀ k, (n''.routeTable.find? k).map RtValue.ttl = (n'.routeTable.find? k).map RtValue.ttl

/-- The calls of `recvArp` at a host keep the first of the best routes they are told. -/
theorem route_learning (hid : ∀ c ∈ cs, c.ID < n.currDevice.devices.length) :
    ∃ n', run learn n cs = some n' ∧ Learns n cs n' := by
  obtain ⟨n', hn', hdev, hfind⟩ := run_learn_eq hid
  have hroute : ∀ dest, n.owns dest = false → n'.routeTable.find? ⟨dest, fullMask⟩ =
      keepBests RtValue.ttl (n.routeTable.find? ⟨dest, fullMask⟩) ((callsFor cs dest).map value) :=
    fun dest howns => (hfind _).trans (if_pos ⟨rfl, howns⟩)
  have hother : ∀ k, ¬(k.mask = fullMask ∧ n.owns k.dest = false) →
      n'.routeTable.find? k = n.routeTable.find? k := fun k hk => (hfind k).trans (if_neg hk)
  have hkept : ∀ k v, n.routeTable.find? k = some v →
      (∀ c ∈ callsFor cs k.dest, (c.ttl.toNat : ℤ) ≤ v.ttl) → n'.routeTable.find? k = some v := by
    intro k v hv hle
    by_cases hk : k.mask = fullMask ∧ n.owns k.dest = false
    · rw [hfind k, if_pos hk]
      exact (learnt_keepBests _ _).kept v hv hle
    · rw [hother k hk, hv]
  refine ⟨n', hn', hdev, fun dest howns => ?_, fun k hk => hother k ?_, fun k v hv => ?_,
    fun k v hv h1024 => hkept k v hv fun c _ => ?_, fun cs' hperm => ?_⟩
  · rw [hroute dest howns]
    exact learnt_keepBests _ _
  · rintro ⟨hmask, howns⟩
    rw [hk hmask] at howns
    cases howns
  · by_cases hk : k.mask = fullMask ∧ n.owns k.dest = false
    · obtain ⟨v', hv', hbest⟩ := keepBests_some RtValue.ttl v ((callsFor cs k.dest).map value)
      refine ⟨v', ?_, hbest.le List.mem_cons_self⟩
      rw [hfind k, if_pos hk, hv, hv']
    · exact ⟨v, by rw [hother k hk, hv], le_rfl⟩
  · have := UInt8.toNat_lt c.ttl
    omega
  · obtain ⟨n'', hn'', -, hfind'⟩ := run_learn_eq (n := n) fun c hc => hid c (hperm.mem_iff.mpr hc)
    refine ⟨n'', hn'', fun k => ?_⟩
    rw [hfind k, hfind' k]
    split_ifs
    · exact (keepBests_perm RtValue.ttl _ ((hperm.filter _).map value)).symm
    · rfl

/-- Calls for two addresses, with a tie for the first of them. -/
def mixedCalls : List ArpCall :=
  [⟨7, 0, ⟨1, 0, 0, 0, 0, 0⟩, 4, 0⟩, ⟨9, 1, ⟨1, 0, 0, 0, 0, 0⟩, 8, 0⟩, ⟨7, 1, ⟨4, 0, 0, 0, 0, 0⟩, 6, 0⟩,
    ⟨7, 0, ⟨5, 0, 0, 0, 0, 0⟩, 6, 0⟩, ⟨3, 0, ⟨6, 0, 0, 0, 0, 0⟩, 9, 0⟩]

theorem route_learning_mixed : ∃ n', run learn relay mixedCalls = some n' ∧
    Learns relay mixedCalls n' ∧
    n'.routeTable.find? ⟨7, fullMask⟩ = some ⟨1, ⟨4, 0, 0, 0, 0, 0⟩, 6⟩ ∧
    n'.routeTable.find? ⟨3, fullMask⟩ = none := by
  have hvalues : (run learn relay mixedCalls).map (fun n' => (n'.routeTable.find? ⟨7, fullMask⟩,
      n'.routeTable.find? ⟨3, fullMask⟩)) = some (some ⟨1, ⟨4, 0, 0, 0, 0, 0⟩, 6⟩, none) := by
    decide +kernel
  have hid : ∀ c ∈ mixedCalls, c.ID < relay.currDevice.devices.length := by decide +kernel
  obtain ⟨n', hn', hlearns⟩ := route_learning hid
  rw [hn', Option.map_some, Option.some.injEq, Prod.mk.injEq] at hvalues
  exact ⟨n', hn', hlearns, hvalues⟩

end Node

end ITCP
