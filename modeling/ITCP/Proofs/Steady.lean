import ITCP.Proofs.Delivery
import ITCP.Proofs.Lines

/-!
# Order along learnt routes

Once the frames about an address have settled, no host takes another route to it, however often its
owners announce themselves again. From then on the routes are ways, and what is sent along them
arrives in the order in which it was sent.
-/

namespace ITCP
open Lib

namespace Network

variable {N : Type} {host : N → Node} {wire : N → ℕ → List (N × ℕ)} {dest : UInt32}
  {announced announced' : N → Bool} {s t : Network N}

lemma Keeps.trans {now now' now'' : N → Node} (h : Keeps dest now now') (h' : Keeps dest now' now'') :
    Keeps dest now now'' := by
  refine ⟨fun i => (h'.currDevice i).trans (h.currDevice i), fun i => ?_⟩
  rcases h'.route i with hsame' | ⟨v'', hv'', hbetter'⟩
  · rw [hsame']
    exact h.route i
  · refine Or.inr ⟨v'', hv'', fun v hv => ?_⟩
    obtain ⟨v', hv', hle⟩ := h.le hv
    exact hle.trans_lt (hbetter' v' hv')

/-- A better route would have been learnt before, unless there are new announcers. -/
lemma Charted.route_eq (hs : Charted host wire dest announced s) (hsettled : s.settled dest = true)
    (ht : Charted host wire dest announced' t)
    (hold : ∀ i, Announcer host dest announced' i → Announcer host dest announced i)
    (hkeeps : Keeps dest s.host t.host) (j : N) : (t.host j).route dest = (s.host j).route dest := by
  rcases hkeeps.route j with hsame | ⟨v', hv', hbetter⟩
  · exact hsame
  obtain ⟨i, d, ttl, httl, h1, -, hlink, h8, hreached, -⟩ := ht.routes j v' hv'
  have hj : Reached host wire dest announced (8 - ttl + 1) j :=
    (hreached.mono hold).next ⟨d, v'.deviceID, hlink⟩
  obtain ⟨v, hv⟩ := hs.exists_route hsettled hj (by omega)
  obtain ⟨-, ttl', httl', -, -, -, -, -, hdist⟩ := hs.route_isDist hsettled hv
  have hle := hdist.2 _ hj
  have hlt := hbetter v hv
  omega

variable [DecidableEq N]

/-- The routes to an address lead to one of its owners. -/
lemma Charted.exists_way (hs : Charted host wire dest announced s) (hsettled : s.settled dest = true)
    (hpaired : Paired wire) (hends : EndsAt host wire dest) {i : N} {v : RtValue}
    (hv : (s.host i).route dest = some v) : ∃ way, Way s.host wire dest i way ∧
      (way.length : ℤ) = 9 - v.ttl ∧ ∀ p, way.getLast? = some p → (host p.1).owns dest = true := by
  induction hn : (9 - v.ttl).toNat using Nat.strong_induction_on generalizing i v with
  | _ n ih =>
    obtain ⟨j, d, ttl, httl, h1, -, hlink, h8, -, habove⟩ := hs.routes i v hv
    obtain ⟨e, he, hne, -, -⟩ := hlink.takes
    have hget : ∀ i id, (s.host i).getDevice id = (host i).getDevice id := fun i id => by
      rw [Node.getDevice, hs.currDevice i, ← Node.getDevice]
    have hothers := hlink.others hpaired he hne
    have hd := (hget j d.ID).trans (Node.getDevice_of_mem hlink.device)
    have hop : Hop s.host wire dest i (j, d.ID) :=
      ⟨v, e, d, hv, (hget i v.deviceID).trans he, hothers, hd, hne⟩
    have hle : (s.host j).height (announced j) dest ≤ ttl + 1 := by
      have howns : (s.host i).owns dest = false := (hs.owns_eq i dest).trans hlink.owns
      have hle := hs.le_height hsettled ⟨d, v.deviceID, hlink⟩ (by omega)
      rwa [Node.height_eq_of_owns_false howns, hv, Option.map_some, Option.getD_some, httl,
        Int.toNat_natCast] at hle
    cases howns : (s.host j).owns dest with
    | true =>
      have howns' : (host j).owns dest = true := (hs.owns_eq j dest).symm.trans howns
      have hmem : (j, d.ID) ∈ others wire i v.deviceID := hothers ▸ List.mem_singleton_self _
      obtain ⟨d', hd', hip⟩ := hends i v.deviceID j d.ID (List.mem_filter.mp hmem).1 howns'
      obtain rfl : d' = d :=
        Option.some.inj (hd'.symm.trans (Node.getDevice_of_mem hlink.device))
      have hheight : ttl = 8 := by
        rw [Node.height, if_pos howns] at habove hle
        split_ifs at habove hle <;> omega
      refine ⟨[(j, d'.ID)], .last hop ⟨d', hd, iff_true_intro hip⟩, ?_, fun p hp => ?_⟩
      · rw [List.length_singleton]
        omega
      · rw [List.getLast?_singleton, Option.some.injEq] at hp
        rwa [← hp]
    | false =>
      rw [Node.height_eq_of_owns_false howns] at habove hle
      cases hv' : (s.host j).route dest with
      | none =>
        rw [hv'] at habove
        exact absurd habove (Nat.not_succ_le_zero ttl)
      | some v' =>
        rw [hv', Option.map_some, Option.getD_some] at habove hle
        obtain ⟨way, hway, hlen, hlast⟩ := ih (9 - v'.ttl).toNat (by omega) hv' rfl
        obtain ⟨q, rest, rfl, -⟩ := hway.head
        have hip : d.IP ≠ dest := fun hip => by
          rw [← hip, Node.owns_of_getDevice hd] at howns
          cases howns
        refine ⟨(j, d.ID) :: q :: rest, .next hop ⟨d, hd, iff_false_intro hip⟩ hway, ?_, ?_⟩
        · rw [List.length_cons, Nat.cast_succ, hlen]
          omega
        · rwa [List.getLast?_cons_cons]

end Network

/-! ### What the lines hold is in flight -/

namespace Lines
open Network

variable {N : Type} [DecidableEq N]

/-- The frames in flight to a device. -/
def waiting (inFlight : List (Transit N)) (q : N × ℕ) : List (List UInt8) :=
  (inFlight.filter (fun a => decide ((a.host, a.device) = q))).map Transit.frame

/-- The frames to a device that were lost. -/
def lostAt (s : Lines N) (q : N × ℕ) : List (List UInt8) :=
  (s.lost.filter (fun a => decide (a.1 = q))).map Prod.snd

/-- What is in flight in the other state waits in line in this one, or was lost. -/
structure Shows (s : Lines N) (u : Network N) : Prop where
  host : u.host = s.host
  line : ∀ q, (waiting u.inFlight q).Perm (s.line q ++ s.lostAt q)

/-- No frame about the address that could be passed on waits in line or was lost. -/
def Settled (s : Lines N) (dest : UInt32) : Prop :=
  ∀ q, ∀ frame ∈ s.line q ++ s.lostAt q, about dest frame = true → frameTTL frame = some 0

/-- Frames about the address come from `sendArp` only, and none with TTL 0 is passed on. -/
def undisturbed (dest : UInt32) (s : Lines N) : LinesEvent N → Bool
  | .deliver i id _ => ((s.line (i, id)).head?).all (fun frame =>
      !(about dest frame && (s.host i).rebroadcasts frame id && frameTTL frame == some 0))
  | .lose _ _ _ => true
  | .sendArp _ _ => true
  | .send _ p => !(p.proto == L3_MYARP && p.src == dest)

/-- The host is among those whose `sendArp` is called. -/
def announces (es : List (LinesEvent N)) (i : N) : Bool :=
  es.any (fun e => match e with
    | .sendArp j _ => decide (j = i)
    | _ => false)

variable {host : N → Node} {wire : N → ℕ → List (N × ℕ)} {dest : UInt32}
  {announced : N → Bool} {s t : Lines N} {u : Network N}

lemma waiting_append (l m : List (Transit N)) (q : N × ℕ) :
    waiting (l ++ m) q = waiting l q ++ waiting m q := by
  rw [waiting, List.filter_append, List.map_append, ← waiting, ← waiting]

lemma waiting_transits (wire : N → ℕ → List (N × ℕ)) (call : ℕ) (i : N)
    (sent : List (ℕ × List UInt8)) (q : N × ℕ) :
    waiting (transits wire call i sent) q = onLine wire i sent q := by
  induction sent with
  | nil => rfl
  | cons p sent ih =>
    have hp : waiting ((wire i p.1).map (fun e => (⟨call, e.1, e.2, p.2⟩ : Transit N))) q =
        List.replicate ((wire i p.1).count q) p.2 := by
      rw [waiting, List.filter_map, List.map_map]
      have hfilter : (wire i p.1).filter ((fun a : Transit N => decide ((a.host, a.device) = q)) ∘
          fun e => ⟨call, e.1, e.2, p.2⟩) = List.replicate ((wire i p.1).count q) q :=
        List.filter_eq q
      rw [hfilter, List.map_replicate]
      rfl
    rw [transits, List.flatMap_cons, waiting_append, hp, ← transits, ih]
    rfl

lemma waiting_cons (a : Transit N) (l : List (Transit N)) (q : N × ℕ) :
    waiting (a :: l) q = (if (a.host, a.device) = q then [a.frame] else []) ++ waiting l q := by
  simp only [waiting, List.filter_cons, decide_eq_true_eq]
  split_ifs <;> rfl

/-- Any frame that is waiting can be delivered. -/
lemma exists_transit_of_mem_waiting {l : List (Transit N)} {q : N × ℕ} {frame : List UInt8}
    (h : frame ∈ waiting l q) : ∃ k a, l[k]? = some a ∧ (a.host, a.device) = q ∧ a.frame = frame ∧
      ∀ r, ((if q = r then [frame] else []) ++ waiting (l.eraseIdx k) r).Perm (waiting l r) := by
  obtain ⟨a, ha, rfl⟩ := List.mem_map.mp h
  obtain ⟨hmem, hq⟩ := List.mem_filter.mp ha
  obtain rfl := of_decide_eq_true hq
  obtain ⟨k, hk⟩ := List.mem_iff_getElem?.mp hmem
  refine ⟨k, a, hk, rfl, rfl, fun r => ?_⟩
  obtain ⟨hlt, rfl⟩ := List.getElem?_eq_some_iff.mp hk
  rw [← waiting_cons]
  exact ((List.getElem_cons_eraseIdx_perm hlt).filter _).map _

/-- Frames only ever wait in the lines of devices that somebody is wired to. -/
lemma run_line_eq_nil {es : List (LinesEvent N)} (h : run (Lines.step wire) (start host) es = some t)
    {q : N × ℕ} (hq : ∀ i d, q ∉ wire i d) : t.line q = [] := by
  have hline : ∀ i sent, onLine wire i sent q = [] := fun i sent =>
    List.flatMap_eq_nil_iff.mpr fun p _ => by rw [List.count_eq_zero.mpr (hq i p.1), List.replicate_zero]
  refine run_invariant (I := fun s : Lines N => s.line q = []) (fun s e t hs hstep => ?_) rfl h
  cases e with
  | deliver i id tmp =>
    obtain ⟨frame, rest, out, hfirst, -, rfl⟩ := step_deliver_eq_some.mp hstep
    have hne : q ≠ (i, id) := by
      rintro rfl
      rw [hs] at hfirst
      cases hfirst
    change Function.update s.line (i, id) rest q ++ onLine wire i out.sent q = []
    rw [Function.update_of_ne hne, hs, hline]
    rfl
  | lose i id k =>
    obtain ⟨frame, hk, rfl⟩ := step_lose_eq_some.mp hstep
    have hne : q ≠ (i, id) := by
      rintro rfl
      rw [hs] at hk
      cases hk
    exact (Function.update_of_ne hne _ _).trans hs
  | sendArp i tmp =>
    obtain ⟨sent, -, hstep⟩ := Option.bind_eq_some_iff.mp hstep
    rw [← Option.some.inj hstep]
    exact List.append_eq_nil_iff.mpr ⟨hs, hline i sent⟩
  | send i p =>
    obtain ⟨sent, -, hstep⟩ := Option.bind_eq_some_iff.mp hstep
    rw [← Option.some.inj hstep]
    exact List.append_eq_nil_iff.mpr ⟨hs, hline i sent⟩

lemma Shows.settled (h : Shows s u) (hsettled : s.Settled dest) : u.settled dest = true := by
  refine List.all_eq_true.mpr fun a ha => ?_
  have hmem : a.frame ∈ waiting u.inFlight (a.host, a.device) :=
    List.mem_map_of_mem (List.mem_filter.mpr ⟨ha, decide_eq_true rfl⟩)
  cases habout : about dest a.frame with
  | false => rfl
  | true =>
    rw [hsettled _ _ ((h.line _).mem_iff.mp hmem) habout, beq_self_eq_true, Bool.or_true]

lemma start_shows (host : N → Node) : Shows (start host) (Network.start host) :=
  ⟨rfl, fun _ => .refl _⟩

/-- Frames that are sent are on their way here and get on the lines there. -/
lemma Shows.emit (h : Shows s u) (i : N) (sent : List (ℕ × List UInt8)) (call n : ℕ)
    (casts : List Cast) : Shows (s.emit wire i sent)
      { u with inFlight := u.inFlight ++ transits wire call i sent, sent := casts, calls := n } := by
  refine ⟨h.host, fun q => ?_⟩
  rw [waiting_append, waiting_transits]
  have hperm := (h.line q).append_right (onLine wire i sent q)
  rw [List.append_assoc] at hperm
  refine hperm.trans ?_
  change List.Perm _ ((s.line q ++ onLine wire i sent q) ++ s.lostAt q)
  rw [List.append_assoc]
  exact List.perm_append_comm.append_left _

lemma Shows.received (h : Shows s u) {q : N × ℕ} {frame : List UInt8} {rest : List (List UInt8)}
    (hline : s.line q = frame :: rest) {k : ℕ} (out : Node.Outcome)
    (herase : ∀ r, ((if q = r then [frame] else []) ++ waiting (u.inFlight.eraseIdx k) r).Perm
      (waiting u.inFlight r)) :
    Shows (s.received q rest out)
      { u with host := Function.update u.host q.1 out.node, inFlight := u.inFlight.eraseIdx k } := by
  refine ⟨congrArg (Function.update · q.1 out.node) h.host, fun r => ?_⟩
  have hperm := (herase r).trans (h.line r)
  rw [received_line]
  by_cases hr : q = r
  · subst hr
    rw [if_pos rfl, hline] at hperm
    rw [Function.update_self]
    exact hperm.cons_inv
  · rw [if_neg hr] at hperm
    rw [Function.update_of_ne (Ne.symm hr)]
    exact hperm

lemma Shows.lose (h : Shows s u) {j : N} {id k : ℕ} (hs : s.step wire (.lose j id k) = some t) :
    Shows t u := by
  obtain ⟨frame, hk, rfl⟩ := step_lose_eq_some.mp hs
  set t : Lines N := { s with
    line := Function.update s.line (j, id) ((s.line (j, id)).eraseIdx k)
    lost := s.lost ++ [((j, id), frame)] }
  have hlost : ∀ r, t.lostAt r = s.lostAt r ++ if (j, id) = r then [frame] else [] := fun r => by
    simp only [t, lostAt, List.filter_append, List.map_append, List.filter_singleton]
    split_ifs with hr <;> simp [hr]
  refine ⟨h.host, fun r => (h.line r).trans ?_⟩
  rw [hlost]
  change List.Perm _ (Function.update s.line (j, id) _ r ++ _)
  split_ifs with hr
  · obtain ⟨hlt, rfl⟩ := List.getElem?_eq_some_iff.mp hk
    rw [← hr, Function.update_self, ← List.append_assoc]
    exact ((List.getElem_cons_eraseIdx_perm hlt).symm.append_right _).trans
      (List.perm_append_singleton _ _).symm
  · rw [Function.update_of_ne (Ne.symm hr), List.append_nil]

/-- Every step is one of the network in which frames may overtake each other, unless it loses one. -/
lemma Shows.step {e : LinesEvent N} (h : Shows s u) (hs : s.step wire e = some t) :
    (Shows t u ∧ announces [e] = fun _ => false) ∨ ∃ e' u',
    Traffic.step wire u e' = some u' ∧ Shows t u' ∧ Traffic.announces [e'] = announces [e] ∧
      ∀ dest, undisturbed dest s e = true → Traffic.undisturbed dest u e' = true := by
  cases e with
  | lose i id k => exact Or.inl ⟨h.lose hs, rfl⟩
  | deliver i id tmp =>
    obtain ⟨frame, rest, out, hline, hout, rfl⟩ := step_deliver_eq_some.mp hs
    have hmem : frame ∈ waiting u.inFlight (i, id) :=
      (h.line (i, id)).mem_iff.mpr (List.mem_append_left _ (hline ▸ List.mem_cons_self))
    obtain ⟨k, a, ha, hq, rfl, herase⟩ := exists_transit_of_mem_waiting hmem
    obtain ⟨rfl, rfl⟩ := Prod.mk.inj hq
    rw [← h.host] at hout
    refine Or.inr ⟨.network (.deliver k tmp), _, Network.step_deliver_eq_some.mpr
      ⟨a, ha, out, hout, rfl⟩, ?_, rfl, fun dest hd => ?_⟩
    · exact (h.received hline out herase).emit a.host out.sent a.call _ _
    · rw [Traffic.undisturbed, ha, h.host]
      rwa [undisturbed, hline] at hd
  | sendArp i tmp =>
    obtain ⟨sent, hsent, hs⟩ := Option.bind_eq_some_iff.mp hs
    obtain rfl := Option.some.inj hs
    rw [← h.host] at hsent
    exact Or.inr ⟨.network (.sendArp i tmp), _, Network.step_sendArp_eq_some.mpr ⟨sent, hsent, rfl⟩,
      h.emit i sent u.calls _ _, rfl, fun _ hd => hd⟩
  | send i p =>
    obtain ⟨sent, hsent, hs⟩ := Option.bind_eq_some_iff.mp hs
    obtain rfl := Option.some.inj hs
    rw [← h.host] at hsent
    have hlog : Shows { s with sent := s.sent ++ [(i, p)] } u := ⟨h.host, h.line⟩
    exact Or.inr ⟨.send i p.src p.dest p.proto p.buf p.ttl, _, Option.bind_eq_some_iff.mpr ⟨sent, hsent, rfl⟩,
      hlog.emit i sent u.calls _ _, rfl, fun _ hd => hd⟩

lemma step_charted {e : LinesEvent N} (h : Shows s u) (hu : Charted host wire dest announced u)
    (hundisturbed : undisturbed dest s e = true) (hs : s.step wire e = some t) :
    ∃ u', Shows t u' ∧ Charted host wire dest (fun j => announced j || announces [e] j) u' := by
  rcases h.step hs with ⟨ht, hannounces⟩ | ⟨e', u', hu', ht, hannounces, hd⟩
  · refine ⟨u, ht, ?_⟩
    simpa only [hannounces, Bool.or_false] using hu
  · have hcharted := Traffic.step_charted hu (hd dest hundisturbed) hu'
    rw [hannounces] at hcharted
    exact ⟨u', ht, hcharted⟩

lemma run_charted {es : List (LinesEvent N)} (hshows : Shows s u)
    (hu : Charted host wire dest announced u)
    (h : run (restrict (fun s e => undisturbed dest s e = true) (step wire)) s es = some t) :
    ∃ u', Shows t u' ∧ Charted host wire dest (fun j => announced j || announces es j) u' := by
  induction es generalizing s u announced with
  | nil =>
    obtain rfl := Option.some.inj h
    exact ⟨u, hshows, by simpa [announces] using hu⟩
  | cons e es ih =>
    obtain ⟨s', hs', hrun⟩ := run_cons_eq_some.mp h
    obtain ⟨hundisturbed, hstep⟩ := restrict_eq_some.mp hs'
    obtain ⟨u', hshows', hu'⟩ := step_charted hshows hu hundisturbed hstep
    have hall := ih hshows' hu' hrun
    simpa only [announces, List.any_cons, List.any_nil, Bool.or_false, Bool.or_assoc] using hall

lemma step_keeps {e : LinesEvent N} (hs : s.step wire e = some t) (dest : UInt32) :
    Keeps dest s.host t.host := by
  cases e with
  | deliver i id tmp =>
    obtain ⟨frame, rest, out, -, hout, rfl⟩ := step_deliver_eq_some.mp hs
    exact Keeps.recvFrame hout dest
  | lose i id k =>
    obtain ⟨frame, -, rfl⟩ := step_lose_eq_some.mp hs
    exact Keeps.refl dest s.host
  | sendArp i tmp =>
    obtain ⟨sent, -, hs⟩ := Option.bind_eq_some_iff.mp hs
    exact Option.some.inj hs ▸ Keeps.refl dest s.host
  | send i p =>
    obtain ⟨sent, -, hs⟩ := Option.bind_eq_some_iff.mp hs
    exact Option.some.inj hs ▸ Keeps.refl dest s.host

/-! ### Flows that start once the routes are settled -/

variable {f : IPFlow} {i : N} {v : RtValue} {way : List (N × ℕ)}

/-- Before any packet of the flow is sent, none is anywhere. -/
def Unsent (f : IPFlow) (s : Lines N) : Prop :=
  s.sentOf f = [] → (∀ q, ∀ frame ∈ s.line q, f.ofFrame frame = none) ∧
    (∀ a ∈ s.lost, f.ofFrame a.2 = none) ∧ s.takenOf f = []

omit [DecidableEq N] in
lemma start_unsent (f : IPFlow) (host : N → Node) : Unsent f (start host) :=
  fun _ => ⟨fun _ _ h => absurd h List.not_mem_nil, fun _ h => absurd h List.not_mem_nil, rfl⟩

lemma Unsent.emit (h : Unsent f s) (j : N) {sent : List (ℕ × List UInt8)}
    (hsent : s.sentOf f = [] → ∀ p ∈ sent, f.ofFrame p.2 = none) : Unsent f (s.emit wire j sent) := by
  intro hnone
  obtain ⟨hline, hrest⟩ := h hnone
  refine ⟨fun q frame hframe => ?_, hrest⟩
  rcases List.mem_append.mp hframe with hframe | hframe
  · exact hline q frame hframe
  · obtain ⟨p, hp, rfl⟩ := mem_onLine hframe
    exact hsent hnone p hp

lemma Unsent.step (hproto : f.proto ≠ L3_MYARP) {e : LinesEvent N} (h : Unsent f s)
    (hs : s.step wire e = some t) : Unsent f t := by
  cases e with
  | deliver j id tmp =>
    obtain ⟨frame, rest, out, hline, hout, rfl⟩ := step_deliver_eq_some.mp hs
    have hother : s.sentOf f = [] → (∀ p ∈ out.sent, f.ofFrame p.2 = none) ∧
        ∀ packet ∈ out.delivered, f.ofPacket packet = none := fun hnone =>
      IPFlow.recvFrame_heard_none hproto (IPFlow.heard_of_ofFrame
        ((h hnone).1 (j, id) frame (hline ▸ List.mem_cons_self)) _ _) hout
    have hreceived : Unsent f (s.received (j, id) rest out) := fun hnone => by
      obtain ⟨hlines, hlost, htaken⟩ := h hnone
      refine ⟨fun q g hg => hlines q g (mem_of_mem_received hline hg), hlost, ?_⟩
      rw [takenOf_received, htaken]
      cases hd : out.delivered with
      | none => rfl
      | some packet => rw [Option.bind_some, (hother hnone).2 packet hd]; rfl
    exact hreceived.emit j fun hnone => (hother hnone).1
  | lose j id k =>
    obtain ⟨frame, hk, rfl⟩ := step_lose_eq_some.mp hs
    intro hnone
    obtain ⟨hlines, hlost, htaken⟩ := h hnone
    refine ⟨fun q g hg => ?_, fun a ha => ?_, htaken⟩
    · dsimp only at hg
      by_cases hq : q = (j, id)
      · rw [hq, Function.update_self] at hg
        exact hlines (j, id) g (List.mem_of_mem_eraseIdx hg)
      · rw [Function.update_of_ne hq] at hg
        exact hlines q g hg
    · rcases List.mem_append.mp ha with ha | ha
      · exact hlost a ha
      · rw [List.mem_singleton.mp ha]
        exact hlines (j, id) frame (List.mem_of_getElem? hk)
  | sendArp j tmp =>
    obtain ⟨sent, hsent, hs⟩ := Option.bind_eq_some_iff.mp hs
    exact Option.some.inj hs ▸ h.emit j fun _ p hp => IPFlow.ofFrame_of_sendArp hproto hsent hp
  | send j p =>
    obtain ⟨sent, hsent, hs⟩ := Option.bind_eq_some_iff.mp hs
    obtain rfl := Option.some.inj hs
    have hsplit : sentOf { s with sent := s.sent ++ [(j, p)] } f = [] →
        s.sentOf f = [] ∧ f.ofSending p = none := fun hnone => by
      rw [sentOf, List.filterMap_append, ← sentOf, List.append_eq_nil_iff] at hnone
      exact ⟨hnone.1, List.filterMap_eq_nil_iff.mp hnone.2 (j, p) (List.mem_singleton_self _)⟩
    have hlog : Unsent f { s with sent := s.sent ++ [(j, p)] } := fun hnone => h (hsplit hnone).1
    exact hlog.emit j fun hnone q hq => (IPFlow.ofFrame_of_send hsent hq).trans (hsplit hnone).2

omit [DecidableEq N] in
lemma Unsent.held (h : Unsent f s) (hnone : s.sentOf f = []) (p : N × ℕ) : s.held f p = [] :=
  List.filterMap_eq_nil_iff.mpr fun frame hframe =>
    IPFlow.heard_of_ofFrame ((h hnone).1 p frame hframe) _ _

omit [DecidableEq N] in
lemma Unsent.lostOf (h : Unsent f s) (hnone : s.sentOf f = []) : s.lostOf f = [] :=
  List.filterMap_eq_nil_iff.mpr fun a ha => IPFlow.heard_of_ofFrame ((h hnone).2.1 a ha) _ _

/-- Only owners that are among the announcers announce the address, and packets of the flow are sent
by a host with the route, with a TTL that is large enough for it. -/
def settledStep (f : IPFlow) (i : N) (v : RtValue) (announced : N → Bool) (s : Lines N)
    (e : LinesEvent N) : Bool :=
  undisturbed f.dest s e &&
  match e with
  | .deliver _ _ _ => true
  | .lose _ _ _ => true
  | .sendArp j _ => announced j || !(s.host j).owns f.dest
  | .send j p => (f.ofSending p).isNone || j = i && 8 ≤ v.ttl + p.ttl && p.ttl ≤ 255

/-- What holds from then on. -/
structure Steady (host : N → Node) (wire : N → ℕ → List (N × ℕ)) (announced : N → Bool) (f : IPFlow)
    (i : N) (way : List (N × ℕ)) (s t : Lines N) : Prop where
  order : InOrder wire f i way t
  keeps : Keeps f.dest s.host t.host
  charted : ∃ u announced', Shows t u ∧ Charted host wire f.dest announced' u ∧
    ∀ j, Announcer host f.dest announced' j → Announcer host f.dest announced j

/-- A host keeps its route from then on. -/
lemma route_kept {w : Network N} {announced' : N → Bool} (hs : Shows s u)
    (hu : Charted host wire f.dest announced u) (hsettled : u.settled f.dest = true) (hw : Shows t w)
    (hcharted : Charted host wire f.dest announced' w)
    (hold : ∀ j, Announcer host f.dest announced' j → Announcer host f.dest announced j)
    (hkeeps : Keeps f.dest s.host t.host) (j : N) :
    (t.host j).route f.dest = (s.host j).route f.dest := by
  rw [← hw.host, ← hs.host] at hkeeps ⊢
  exact hu.route_eq hsettled hcharted hold hkeeps j

lemma Steady.step {t' : Lines N} {e : LinesEvent N} (hs : Shows s u)
    (hu : Charted host wire f.dest announced u) (hsettled : u.settled f.dest = true)
    (hlen : (way.length : ℤ) = 9 - v.ttl) (hdest : f.dest ≠ 0xffffffff) (hproto : f.proto ≠ L3_MYARP)
    (h : Steady host wire announced f i way s t)
    (he : settledStep f i v announced t e = true) (ht : t.step wire e = some t') :
    Steady host wire announced f i way s t' := by
  obtain ⟨hundisturbed, hlater⟩ := Bool.and_eq_true_iff.mp he
  obtain ⟨w, announced', hw, hcharted, hold⟩ := h.charted
  obtain ⟨w', hw', hcharted'⟩ := step_charted hw hcharted hundisturbed ht
  have hold' : ∀ j, Announcer host f.dest (fun j => announced' j || announces [e] j) j →
      Announcer host f.dest announced j := by
    rintro j ⟨hj, howns⟩
    rcases Bool.or_eq_true_iff.mp hj with hj | hj
    · exact hold j ⟨hj, howns⟩
    · cases e with
      | deliver => cases hj
      | lose => cases hj
      | send => cases hj
      | sendArp k tmp =>
        rw [announces, List.any_cons, List.any_nil, Bool.or_false, decide_eq_true_eq] at hj
        subst hj
        dsimp only at hlater
        rw [← hw.host, hcharted.owns_eq, howns, Bool.not_true, Bool.or_false] at hlater
        exact ⟨hlater, howns⟩
  have hkeeps := h.keeps.trans (step_keeps ht f.dest)
  refine ⟨h.order.step hdest hproto ?_ ht, hkeeps, w', _, hw', hcharted', hold'⟩
  unfold steady
  rw [ht, Option.all_some, Bool.and_eq_true_iff, List.all_eq_true]
  refine ⟨fun j _ => ?_, ?_⟩
  · rw [beq_iff_eq, route_kept hs hu hsettled hw' hcharted' hold' hkeeps j,
      route_kept hs hu hsettled hw hcharted hold h.keeps j]
  · cases e with
    | deliver => rfl
    | lose => rfl
    | sendArp => rfl
    | send j p =>
      dsimp only at hlater ⊢
      simp only [Bool.or_eq_true, Bool.and_eq_true, decide_eq_true_eq] at hlater ⊢
      refine hlater.imp_right fun ⟨⟨hj, hlow⟩, hhigh⟩ => ⟨⟨hj, ?_⟩, hhigh⟩
      omega

/-- The packets of a flow that starts when the frames about its address have settled. No host changes
its route any more. From any host that has one they travel along a way to an owner of the address, whose
length is the distance that the route tells. The owner takes them in the order in which they were sent,
none of them twice, and only lost ones are missing. -/
theorem settled_in_order {es ds : List (LinesEvent N)} (hpaired : Paired wire)
    (hends : EndsAt host wire f.dest) (hnone : ∀ j, (host j).route f.dest = none)
    (hs : run (restrict (fun s e => undisturbed f.dest s e = true) (Lines.step wire)) (start host) es =
      some s)
    (hsettled : s.Settled f.dest) (hsent : s.sentOf f = []) (hv : (s.host i).route f.dest = some v)
    (hdest : f.dest ≠ 0xffffffff) (hproto : f.proto ≠ L3_MYARP)
    (ht : run (restrict (fun s e => settledStep f i v (announces es) s e = true) (Lines.step wire)) s
      ds = some t) :
    (∀ j, (t.host j).route f.dest = (s.host j).route f.dest) ∧
    ∃ way, Way s.host wire f.dest i way ∧ (way.length : ℤ) = 9 - v.ttl ∧
      (t.arriving f way).Sublist (t.sentOf f) ∧
      List.Perm (t.arriving f way ++ t.lostOf f) (t.sentOf f) ∧
      (∀ p, p ∉ way → t.held f p = []) ∧
      ∀ a ∈ t.taken, f.ofPacket a.2 ≠ none → (host a.1).owns f.dest = true := by
  obtain ⟨u, hu, hcharted⟩ := run_charted (start_shows host) (start_charted hnone) hs
  simp only [Bool.false_or] at hcharted
  have hstill := hu.settled hsettled
  have hunsent : Unsent f s := run_invariant (I := Unsent f)
    (fun _ _ _ h hstep => h.step hproto (restrict_eq_some.mp hstep).2) (start_unsent f host) hs
  rw [← hu.host] at hv
  obtain ⟨way, hway, hlen, hlast⟩ := hcharted.exists_way hstill hpaired hends hv
  rw [hu.host] at hway
  have hfirst : Steady host wire (announces es) f i way s s :=
    ⟨InOrder.of_empty hway (hunsent.held hsent) hsent (hunsent hsent).2.2 (hunsent.lostOf hsent),
      Keeps.refl _ _, u, _, hu, hcharted, fun _ h => h⟩
  have hall : Steady host wire (announces es) f i way s t := run_invariant
    (I := Steady host wire (announces es) f i way s) (fun _ _ _ h hstep =>
      h.step hu hcharted hstill hlen hdest hproto (restrict_eq_some.mp hstep).1
        (restrict_eq_some.mp hstep).2) hfirst ht
  obtain ⟨w, announced', hw, hcharted', hold⟩ := hall.charted
  refine ⟨route_kept hu hcharted hstill hw hcharted' hold hall.keeps, way, hway, hlen,
    hall.order.order, hall.order.all, hall.order.off, fun a ha hne => ?_⟩
  obtain ⟨id, hid⟩ := hall.order.taken a ha hne
  exact hlast _ hid

/-- The flood of the first of three hosts in a line; the last of its frames is lost. -/
def lineFlood {N : Type} (i j k : N) : List (LinesEvent N) :=
  [.sendArp i 0, .deliver j 0 0] ++ (List.replicate 3 [.deliver k 0 0, .deliver j 1 0]).flatten ++
    .deliver k 0 0 :: .lose j 1 0 :: List.replicate 4 (.deliver i 0 0)

/-- After it, two packets of the third host reach the first. -/
theorem settled_in_order_line : ∃ s t,
    run (Lines.step lineWire) (start lineHost) (lineFlood 0 1 2) = some s ∧
    run (Lines.step lineWire) s [.send 2 ⟨4, 1, 6, [7], 32⟩, .send 2 ⟨4, 1, 6, [8], 32⟩,
      .deliver 1 1 0, .deliver 1 1 0, .deliver 0 0 0, .deliver 0 0 0] = some t ∧
    (∀ j, (t.host j).route 1 = (s.host j).route 1) ∧
    ∃ way, (way.length : ℤ) = 2 ∧ (t.arriving ⟨4, 1, 6⟩ way).Sublist [[7], [8]] ∧
      List.Perm (t.arriving ⟨4, 1, 6⟩ way) [[7], [8]] := by
  have hnone : ∀ j, (lineHost j).route 1 = none := by
    intro j
    fin_cases j <;> rfl
  have hex : ∃ s,
      run (restrict (fun s e => undisturbed 1 s e = true) (Lines.step lineWire)) (start lineHost)
        (lineFlood 0 1 2) = some s ∧
      ([((0 : Fin 3), 0), (1, 0), (1, 1), (2, 0)].all (fun q => (s.line q).isEmpty) = true ∧
        s.lost.all (fun a => frameTTL a.2 == some 0) = true ∧ s.sentOf ⟨4, 1, 6⟩ = []) ∧
      ∃ v, (s.host 2).route 1 = some v ∧ v.ttl = 7 ∧ ∃ t, run (restrict (fun s e =>
        settledStep ⟨4, 1, 6⟩ 2 v (announces (lineFlood 0 1 2)) s e = true) (Lines.step lineWire)) s
          [.send 2 ⟨4, 1, 6, [7], 32⟩, .send 2 ⟨4, 1, 6, [8], 32⟩, .deliver 1 1 0, .deliver 1 1 0,
            .deliver 0 0 0, .deliver 0 0 0] = some t ∧
        t.sentOf ⟨4, 1, 6⟩ = [[7], [8]] ∧ t.lostOf ⟨4, 1, 6⟩ = [] := by
    refine ⟨_, (Option.some_get (by decide +kernel)).symm, by decide +kernel, _,
      (Option.some_get (by decide +kernel)).symm, by decide +kernel, _,
      (Option.some_get (by decide +kernel)).symm, by decide +kernel, by decide +kernel⟩
  obtain ⟨s, hs, ⟨hlines, hlost, hsent⟩, v, hv, httl, t, ht, htsent, htlost⟩ := hex
  have hsettled : s.Settled 1 := by
    intro q frame hframe
    rcases List.mem_append.mp hframe with hframe | hframe
    · have hempty : s.line q = [] := by
        by_cases hq : q ∈ [((0 : Fin 3), 0), (1, 0), (1, 1), (2, 0)]
        · exact List.isEmpty_iff.mp (List.all_eq_true.mp hlines q hq)
        · refine run_line_eq_nil (run_of_restrict hs) fun i d hwired => hq ?_
          unfold lineWire at hwired
          split at hwired
          all_goals simp only [List.mem_singleton, List.not_mem_nil] at hwired
          all_goals simp [hwired]
      rw [hempty] at hframe
      cases hframe
    · obtain ⟨a, ha, rfl⟩ := List.mem_map.mp hframe
      exact fun _ => beq_iff_eq.mp (List.all_eq_true.mp hlost a (List.mem_filter.mp ha).1)
  obtain ⟨hkept, way, -, hlen, horder, hall, -⟩ := settled_in_order (f := ⟨4, 1, 6⟩)
    Delivery.lineWire_paired Delivery.lineWire_endsAt hnone hs hsettled hsent hv (by decide)
    (by decide) ht
  rw [htsent] at horder hall
  rw [htlost, List.append_nil] at hall
  exact ⟨s, t, run_of_restrict hs, run_of_restrict ht, hkept, way, by omega, horder, hall⟩

end Lines

end ITCP
