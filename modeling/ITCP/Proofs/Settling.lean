import ITCP.Proofs.Convergence

/-!
# The end of a flood

Frames whose TTL is not 0 can only be delivered so many times, since what they cause has a smaller
TTL. When none of them can be delivered any more the network has settled, for every address at once.
-/

namespace ITCP
open Lib

/-- A host has an outcome for every myArp packet that arrives on one of its devices. -/
lemma Node.recvFrame_ne_none {n : Node} {frame : List UInt8} {id : ℕ} {d : Device}
    (hd : n.getDevice id = some d) (harp : isMyArp frame = true) (tmp : UInt8) :
    n.recvFrame frame id tmp ≠ none := by
  obtain ⟨ip, hip, hproto⟩ := (Option.any_eq_true _ _).mp harp
  obtain ⟨eth, heth, hip⟩ := Option.bind_eq_some_iff.mp hip
  by_cases hmac : eth.src = d.Mac
  · rw [recvFrame_own heth hd hmac]
    exact Option.some_ne_none _
  rw [recvFrame_eq heth hip hd hmac, if_pos (beq_iff_eq.mp hproto)]
  split_ifs
  · exact Option.some_ne_none _
  · cases howns : n.owns ip.src with
    | true =>
      rw [recvArp, if_pos howns]
      exact Option.some_ne_none _
    | false =>
      obtain ⟨n', hn', -⟩ := recvArp_eq hd howns fullMask eth.src (ip.ttl.toNat : ℤ) tmp
      rw [hn']
      exact Option.some_ne_none _

namespace Network

variable {N : Type} {wire : N → ℕ → List (N × ℕ)} {host : N → Node} {s t : Network N}

/-- The deliveries that the frames in flight can lead to, when a frame that is passed on reaches at
most `K` hosts. -/
def load (K : ℕ) (s : Network N) : ℕ := (s.inFlight.map (fun a => frameReach 1 K a.frame)).sum

lemma sum_transits_frameReach (D K : ℕ) (i : N) (call : ℕ) (sent : List (ℕ × List UInt8)) :
    ((transits wire call i sent).map (fun a => frameReach D K a.frame)).sum =
      (sent.map (fun p => (wire i p.1).length * frameReach D K p.2)).sum := by
  have hsum := @sum_transits N wire D K i call call sent
  rw [if_pos rfl] at hsum
  rw [← hsum]
  refine congrArg List.sum (List.map_congr_left fun a ha => ?_)
  obtain ⟨p, -, -, hcall⟩ := mem_transits ha
  rw [if_pos hcall]

lemma load_eraseIdx (K : ℕ) {k : ℕ} {a : Transit N} (ha : s.inFlight[k]? = some a) :
    s.load K = frameReach 1 K a.frame + load K { s with inFlight := s.inFlight.eraseIdx k } := by
  obtain ⟨hk, rfl⟩ := List.getElem?_eq_some_iff.mp ha
  have hperm := (List.getElem_cons_eraseIdx_perm hk).symm
  have hsum := (hperm.map (fun a => frameReach 1 K a.frame)).sum_eq
  rwa [List.map_cons, List.sum_cons] at hsum

/-- A host causes less than it was sent. -/
lemma sum_recvFrame {D K : ℕ} {i : N} {n : Node} {frame : List UInt8} {id : ℕ} {tmp ttl : UInt8}
    {out : Node.Outcome} (hK : fanOut wire i n ≤ K) (httl : frameTTL frame = some ttl) (hne : ttl ≠ 0)
    (h : n.recvFrame frame id tmp = some out) :
    (out.sent.map (fun p => (wire i p.1).length * frameReach D K p.2)).sum ≤
      K * reach D K (UInt8.ofInt (ttl.toNat - 1)).toNat := by
  obtain ⟨-, hsent⟩ | ⟨ip, hip, hcases⟩ := Node.recvFrame_outcome h
  · rw [hsent]
    exact Nat.zero_le _
  obtain rfl : ip.ttl = ttl := by
    rwa [frameTTL, hip, Option.map_some, Option.some.injEq] at httl
  rcases hcases with ⟨-, mac, hrecv⟩ | ⟨-, -, hforward⟩
  · cases howns : n.owns ip.src with
    | true =>
      rw [Node.recvArp, howns, if_pos rfl, Option.some.injEq, Prod.mk.injEq] at hrecv
      rw [← hrecv.2]
      exact Nat.zero_le _
    | false =>
      obtain ⟨d, hd⟩ := Node.getDevice_of_recvFrame h
      obtain ⟨n', hn', -⟩ := Node.recvArp_eq hd howns fullMask mac (ip.ttl.toNat : ℤ) tmp
      rw [hrecv, Option.some.injEq, Prod.mk.injEq] at hn'
      rw [hn'.2, sum_arpFrames]
      exact Nat.mul_le_mul_right _ hK
  · unfold Node.forward at hforward
    split_ifs at hforward
    · rw [← Option.some.inj hforward]
      exact Nat.zero_le _
    · exact sum_sendIPPacket hK hforward

end Network

namespace Traffic
open Network

variable {N : Type} {wire : N → ℕ → List (N × ℕ)} {host : N → Node} {s t : Network N}

/-- The delivery of a frame whose TTL is not 0. -/
def live (s : Network N) : TrafficEvent N → Bool
  | .network (.deliver k _) => (s.inFlight[k]?).any (fun a => (frameTTL a.frame).any (· != 0))
  | _ => false

lemma live_eq_true {e : TrafficEvent N} : live s e = true ↔ ∃ k tmp a ttl,
    e = .network (.deliver k tmp) ∧ s.inFlight[k]? = some a ∧ frameTTL a.frame = some ttl ∧
      ttl ≠ 0 := by
  constructor
  · intro h
    cases e with
    | network e =>
      cases e with
      | sendArp => cases h
      | deliver k tmp =>
        obtain ⟨a, ha, h⟩ := (Option.any_eq_true _ _).mp h
        obtain ⟨ttl, httl, hne⟩ := (Option.any_eq_true _ _).mp h
        exact ⟨k, tmp, a, ttl, rfl, ha, httl, bne_iff_ne.mp hne⟩
    | send | arrive => cases h
  · rintro ⟨k, tmp, a, ttl, rfl, ha, httl, hne⟩
    rw [live, ha, Option.any_some, httl, Option.any_some, bne_iff_ne]
    exact hne

lemma undisturbed_of_live {e : TrafficEvent N} (dest : UInt32) (h : live s e = true) :
    undisturbed dest s e = true := by
  obtain ⟨k, tmp, a, ttl, rfl, ha, httl, hne⟩ := live_eq_true.mp h
  simp [undisturbed, ha, httl, hne]

/-- The event brings in a frame on a device that exists. -/
def Lands (host : N → Node) : TrafficEvent N → Prop
  | .arrive i device _ => ((host i).getDevice device).isSome
  | _ => True

def WiredUp (wire : N → ℕ → List (N × ℕ)) (host : N → Node) : Prop :=
  ∀ i d e, e ∈ wire i d → ((host e.1).getDevice e.2).isSome

/-- The devices never change, and the frames in flight are on their way to some of them. -/
structure Settling (host : N → Node) (s : Network N) : Prop where
  currDevice : ∀ i, (s.host i).currDevice = (host i).currDevice
  arrives : ∀ a ∈ s.inFlight, ((host a.host).getDevice a.device).isSome

variable [DecidableEq N]

lemma Settling.step {e : TrafficEvent N} (hwired : WiredUp wire host) (hs : Settling host s)
    (he : Lands host e) (h : step wire s e = some t) : Settling host t := by
  have hnew : ∀ {call : ℕ} {i : N} {sent : List (ℕ × List UInt8)},
      ∀ a ∈ transits wire call i sent, ((host a.host).getDevice a.device).isSome := by
    intro call i sent a ha
    obtain ⟨p, -, hw, -⟩ := mem_transits_iff.mp ha
    exact hwired i p.1 _ hw
  have hsent : ∀ {call : ℕ} {i : N} {sent : List (ℕ × List UInt8)},
      ∀ a ∈ s.inFlight ++ transits wire call i sent, ((host a.host).getDevice a.device).isSome :=
    fun a ha => (List.mem_append.mp ha).elim (hs.arrives a) (hnew a)
  cases e with
  | network e =>
    cases e with
    | sendArp i tmp =>
      obtain ⟨sent, -, rfl⟩ := step_sendArp_eq_some.mp h
      exact ⟨hs.currDevice, hsent⟩
    | deliver k tmp =>
      obtain ⟨a, ha, out, hout, rfl⟩ := step_deliver_eq_some.mp h
      refine ⟨fun i => ?_, fun b hb => (List.mem_append.mp hb).elim
        (fun hb => hs.arrives b (List.mem_of_mem_eraseIdx hb)) (hnew b)⟩
      by_cases hi : i = a.host
      · rw [hi, ← hs.currDevice, ← (Node.recvFrame_cases hout).1]
        exact congrArg Node.currDevice (Function.update_self ..)
      · exact (congrArg Node.currDevice (Function.update_of_ne hi ..)).trans (hs.currDevice i)
  | send i src dest proto buf ttl =>
    obtain ⟨sent, -, h⟩ := Option.bind_eq_some_iff.mp h
    obtain rfl := Option.some.inj h
    exact ⟨hs.currDevice, hsent⟩
  | arrive i d frame =>
    obtain rfl := Option.some.inj h
    refine ⟨hs.currDevice, fun a ha => (List.mem_append.mp ha).elim (hs.arrives a) fun ha => ?_⟩
    rw [List.mem_singleton.mp ha]
    exact he

/-- A delivery of a frame whose TTL is not 0 lowers the load. -/
lemma load_live {K : ℕ} {e : TrafficEvent N} (hK : ∀ i, fanOut wire i (s.host i) ≤ K)
    (hlive : live s e = true) (h : step wire s e = some t) : t.load K < s.load K := by
  obtain ⟨k, tmp, a, ttl, rfl, ha, httl, hne⟩ := live_eq_true.mp hlive
  obtain ⟨b, hb, out, hout, rfl⟩ := step_deliver_eq_some.mp h
  obtain rfl : b = a := Option.some.inj (hb.symm.trans ha)
  have hreach : frameReach 1 K b.frame = 1 + K * reach 1 K (UInt8.ofInt (ttl.toNat - 1)).toNat := by
    rw [frameReach, httl]
    exact congrArg (reach 1 K) (ofInt_sub_one hne).symm
  have hle := sum_recvFrame (D := 1) (hK b.host) httl hne hout
  rw [load_eraseIdx K ha, hreach]
  simp only [load, List.map_append, List.sum_append, sum_transits_frameReach]
  omega

/-- A frame about an address that could still be passed on can be delivered. -/
lemma settled_of_stuck (hs : Settling host s)
    (hstuck : ∀ e, restrict (fun s e => live s e = true) (step wire) s e = none) (dest : UInt32) :
    s.settled dest = true := by
  refine List.all_eq_true.mpr fun a ha => ?_
  cases habout : about dest a.frame with
  | false => rfl
  | true =>
    obtain ⟨ip, hip, hboth⟩ := (Option.any_eq_true _ _).mp habout
    have harp : isMyArp a.frame = true :=
      (Option.any_eq_true _ _).mpr ⟨ip, hip, (Bool.and_eq_true_iff.mp hboth).1⟩
    have httl : frameTTL a.frame = some ip.ttl := by rw [frameTTL, hip, Option.map_some]
    rw [httl, Bool.not_true, Bool.false_or, beq_iff_eq, Option.some.injEq]
    by_contra hne
    obtain ⟨k, hk⟩ := List.mem_iff_getElem?.mp ha
    obtain ⟨d, hd⟩ := Option.isSome_iff_exists.mp (hs.arrives a ha)
    rw [Node.getDevice, ← hs.currDevice, ← Node.getDevice] at hd
    obtain ⟨out, hout⟩ := Option.ne_none_iff_exists'.mp (Node.recvFrame_ne_none hd harp 0)
    have hnone := hstuck (.network (.deliver k 0))
    rw [restrict, if_pos (live_eq_true.mpr ⟨k, 0, a, ip.ttl, rfl, hk, httl, hne⟩)] at hnone
    obtain ⟨u, hu⟩ : ∃ u, Network.step wire s (.deliver k 0) = some u :=
      ⟨_, step_deliver_eq_some.mpr ⟨a, hk, out, hout, rfl⟩⟩
    exact Option.some_ne_none _ (hu.symm.trans hnone)

/-- Wherever a run has got to, the frames whose TTL is not 0 can be delivered in any order until none
of them can be delivered. That takes a bounded number of deliveries, passes on no frame with TTL 0,
and leaves the network settled for every address. -/
theorem flood_settles [Fintype N] {es : List (TrafficEvent N)} (hwired : WiredUp wire host)
    (hes : ∀ e ∈ es, Lands host e) (h : run (step wire) (start host) es = some s) :
    (∀ ds t, run (restrict (fun s e => live s e = true) (step wire)) s ds = some t →
      ds.length ≤ s.load (∑ i, fanOut wire i (host i)) ∧
      (∀ dest, run (restrict (fun s e => undisturbed dest s e = true) (step wire)) s ds = some t) ∧
      ((∀ e, restrict (fun s e => live s e = true) (step wire) t e = none) →
        ∀ dest, t.settled dest = true)) ∧
    ∃ ds t, run (restrict (fun s e => live s e = true) (step wire)) s ds = some t ∧
      ∀ e, restrict (fun s e => live s e = true) (step wire) t e = none := by
  have hinv : ∀ s e t, Settling host s →
      restrict (fun s e => live s e = true) (step wire) s e = some t → Settling host t := by
    intro s e t hs h
    obtain ⟨hlive, hstep⟩ := restrict_eq_some.mp h
    obtain ⟨k, tmp, a, ttl, rfl, -⟩ := live_eq_true.mp hlive
    exact hs.step (e := .network (.deliver k tmp)) hwired trivial hstep
  have hload : ∀ s e t, Settling host s →
      restrict (fun s e => live s e = true) (step wire) s e = some t →
      t.load (∑ i, fanOut wire i (host i)) < s.load (∑ i, fanOut wire i (host i)) := by
    intro s e t hs h
    obtain ⟨hlive, hstep⟩ := restrict_eq_some.mp h
    refine load_live (fun i => ?_) hlive hstep
    rw [fanOut, hs.currDevice i]
    exact fanOut_le_sum wire host i
  have hs : Settling host s := run_invariant_of (Lands host)
    (fun s e t he hs h => hs.step hwired he h) hes
    ⟨fun _ => rfl, fun _ ha => absurd ha List.not_mem_nil⟩ h
  refine ⟨fun ds t ht => ⟨?_, fun dest => run_restrict_mono (fun s e => undisturbed_of_live dest) ht,
    fun hstuck => settled_of_stuck (run_invariant hinv hs ht) hstuck⟩,
    exists_run_stuck _ hinv hload hs⟩
  have hlen := run_length_le _ hinv hload hs ht
  omega

lemma lineWire_wiredUp : WiredUp lineWire lineHost := by
  intro i d e he
  unfold lineWire at he
  split at he
  all_goals simp only [List.mem_singleton, List.not_mem_nil] at he
  all_goals
    subst he
    rfl

/-- The flood of the first host in the line comes to an end. -/
theorem flood_settles_line : ∃ s ds t, step lineWire (start lineHost) (.network (.sendArp 0 0)) =
      some s ∧ run (restrict (fun s e => live s e = true) (step lineWire)) s ds = some t ∧
    ∀ e, restrict (fun s e => live s e = true) (step lineWire) t e = none := by
  have hlands : ∀ e ∈ [TrafficEvent.network (.sendArp (0 : Fin 3) 0)], Lands lineHost e := by
    intro e he
    rw [List.mem_singleton.mp he]
    trivial
  have hrun : run (step lineWire) (start lineHost) [.network (.sendArp 0 0)] = some _ :=
    (Option.some_get (by decide +kernel)).symm
  obtain ⟨ds, t, ht, hstuck⟩ := (flood_settles lineWire_wiredUp hlands hrun).2
  exact ⟨_, ds, t, (Option.some_get (by decide +kernel)).symm, ht, hstuck⟩

end Traffic

end ITCP
