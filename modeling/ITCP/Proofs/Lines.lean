import ITCP.Lib.Relay
import ITCP.Model.Lines
import ITCP.Proofs.Forward
import ITCP.Proofs.Routes

/-!
# One way through the network

The packets of one kind from one host to an address, sent along a way that the routes of the hosts
describe. As long as nobody on the way takes a better route, the lines of the way are one queue, and
the packets come out of it as they went in.
-/

namespace ITCP
open Lib
open scoped List

/-- The packets with a source, a destination and a protocol. -/
structure IPFlow where
  src : UInt32
  dest : UInt32
  proto : UInt8
  deriving DecidableEq

namespace IPFlow

variable (f : IPFlow)

/-- The payload of a packet of the flow. -/
def payload (ip : IPFields) : Option (List UInt8) :=
  if ip.src = f.src ∧ ip.dst = f.dest ∧ ip.protocol = f.proto then some ip.payload else none

def ofFrame (frame : List UInt8) : Option (List UInt8) := (frameIP frame).bind f.payload

def ofPacket (packet : List UInt8) : Option (List UInt8) := (parseIP packet).bind f.payload

def ofSending (p : Sending) : Option (List UInt8) :=
  if p.src = f.src ∧ p.dest = f.dest ∧ p.proto = f.proto then some p.buf else none

/-- What the device hears of the flow; the host drops the frames that the device sent itself. -/
def heard (n : Node) (id : ℕ) (frame : List UInt8) : Option (List UInt8) :=
  if n.ownFrame frame id then none else f.ofFrame frame

variable {f}

lemma ofFrame_ipFrame (src dest : UInt32) (proto : UInt8) (buf : List UInt8) (ttl : ℤ)
    (destmac mac : Mac) : f.ofFrame (ipFrame src dest proto buf ttl destmac mac) =
      f.ofSending ⟨src, dest, proto, buf, ttl⟩ := by
  rw [ofFrame, frameIP_ipFrame]
  rfl

lemma ofPacket_constructIPPacket (src dest : UInt32) (proto : UInt8) (buf : List UInt8) (ttl : ℤ) :
    f.ofPacket (constructIPPacket src dest proto buf ttl) =
      f.ofSending ⟨src, dest, proto, buf, ttl⟩ := by
  rw [ofPacket, parseIP_constructIPPacket]
  rfl

lemma ofSending_self (buf : List UInt8) (ttl : ℤ) :
    f.ofSending ⟨f.src, f.dest, f.proto, buf, ttl⟩ = some buf := if_pos ⟨rfl, rfl, rfl⟩

lemma ofSending_eq_some {p : Sending} {buf : List UInt8} (h : f.ofSending p = some buf) :
    p = ⟨f.src, f.dest, f.proto, buf, p.ttl⟩ := by
  unfold ofSending at h
  split_ifs at h with heq
  obtain ⟨hsrc, hdest, hproto⟩ := heq
  rw [← Option.some.inj h, ← hsrc, ← hdest, ← hproto]

lemma ofSending_of_proto {p : Sending} (h : p.proto ≠ f.proto) : f.ofSending p = none :=
  if_neg fun heq => h heq.2.2

lemma heard_of_ofFrame {frame : List UInt8} (h : f.ofFrame frame = none) (n : Node) (id : ℕ) :
    f.heard n id frame = none := by
  rw [heard, h, ite_self]

lemma heard_eq_some {n : Node} {id : ℕ} {frame buf : List UInt8} (h : f.heard n id frame = some buf) :
    n.ownFrame frame id = false ∧ f.ofFrame frame = some buf := by
  unfold heard at h
  split_ifs at h with hown
  exact ⟨(Bool.not_eq_true _).mp hown, h⟩

lemma heard_congr {n n' : Node} (h : n'.currDevice = n.currDevice) (id : ℕ) (frame : List UInt8) :
    f.heard n' id frame = f.heard n id frame := by
  rw [heard, Node.ownFrame_congr h, ← heard]

/-- What a host sends for any other frame is of another flow, and so is what it delivers. -/
lemma recvFrame_heard_none {n : Node} {frame : List UInt8} {id : ℕ} {tmp : UInt8}
    {out : Node.Outcome} (hproto : f.proto ≠ L3_MYARP) (hframe : f.heard n id frame = none)
    (h : n.recvFrame frame id tmp = some out) :
    (∀ p ∈ out.sent, f.ofFrame p.2 = none) ∧
      ∀ packet ∈ out.delivered, f.ofPacket packet = none := by
  unfold heard at hframe
  split_ifs at hframe with hown
  · rw [Node.recvFrame_ownFrame hown, Option.some.injEq] at h
    rw [← h]
    exact ⟨nofun, nofun⟩
  refine ⟨fun p hp => ?_, fun packet hp => ?_⟩
  · obtain ⟨-, hsent⟩ | ⟨ip, hip, ⟨-, mac, hrecv⟩ | ⟨-, -, hforward⟩⟩ := Node.recvFrame_outcome h
    · rw [hsent] at hp
      cases hp
    · cases howns : n.owns ip.src with
      | true =>
        rw [Node.recvArp, howns, if_pos rfl, Option.some.injEq, Prod.mk.injEq] at hrecv
        rw [← hrecv.2] at hp
        cases hp
      | false =>
        obtain ⟨d, hd⟩ := Node.getDevice_of_recvFrame h
        obtain ⟨n', hn', -⟩ := Node.recvArp_eq hd howns fullMask mac (ip.ttl.toNat : ℤ) tmp
        rw [hrecv, Option.some.injEq, Prod.mk.injEq] at hn'
        rw [hn'.2] at hp
        obtain ⟨e, -, rfl⟩ := List.mem_map.mp hp
        exact (ofFrame_ipFrame _ _ _ _ _ _ _).trans (ofSending_of_proto hproto.symm)
    · unfold Node.forward at hforward
      split_ifs at hforward
      · rw [← Option.some.inj hforward] at hp
        cases hp
      · obtain ⟨destmac, mac, hp⟩ := Node.sendIPPacket_frames hforward hp
        rw [hp, ofFrame_ipFrame]
        rwa [ofFrame, hip, Option.bind_some] at hframe
  · rw [ofPacket, ← (Node.recvFrame_delivered h hp).2.2]
    exact hframe

lemma ofFrame_of_sendArp {n : Node} {tmp : UInt8} {sent : List (ℕ × List UInt8)}
    (hproto : f.proto ≠ L3_MYARP) (h : n.sendArp tmp = some sent) {p : ℕ × List UInt8}
    (hp : p ∈ sent) : f.ofFrame p.2 = none := by
  rw [Node.sendArp_eq, Option.some.injEq] at h
  rw [← h] at hp
  obtain ⟨d, -, hp⟩ := List.mem_flatMap.mp hp
  obtain ⟨d', -, rfl⟩ := List.mem_map.mp hp
  exact (ofFrame_ipFrame _ _ _ _ _ _ _).trans (ofSending_of_proto hproto.symm)

lemma ofFrame_of_send {n : Node} {p : Sending} {sent : List (ℕ × List UInt8)}
    (h : n.send p = some sent) {q : ℕ × List UInt8} (hq : q ∈ sent) :
    f.ofFrame q.2 = f.ofSending p := by
  obtain ⟨destmac, mac, hframe⟩ := Node.sendIPPacket_frames h hq
  rw [hframe, ofFrame_ipFrame]

end IPFlow

/-! ### The way -/

/-- The route of the host leads to a device that no other device hears but this one, which does not
drop its frames. -/
def Hop {N : Type} [DecidableEq N] (now : N → Node) (wire : N → ℕ → List (N × ℕ)) (dest : UInt32)
    (i : N) (p : N × ℕ) : Prop :=
  ∃ v d e, (now i).route dest = some v ∧ (now i).getDevice v.deviceID = some d ∧
    Network.others wire i v.deviceID = [p] ∧ (now p.1).getDevice p.2 = some e ∧ e.Mac ≠ d.Mac

/-- The device has the address, or not. -/
def Ends {N : Type} (now : N → Node) (dest : UInt32) (p : N × ℕ) (ends : Prop) : Prop :=
  ∃ e, (now p.1).getDevice p.2 = some e ∧ (e.IP = dest ↔ ends)

/-- The devices that a packet for the address arrives on, one after the other, when it sets out from
the host. -/
inductive Way {N : Type} [DecidableEq N] (now : N → Node) (wire : N → ℕ → List (N × ℕ)) (dest : UInt32) :
    N → List (N × ℕ) → Prop
  | last {i : N} {p : N × ℕ} (hop : Hop now wire dest i p) (ends : Ends now dest p True) :
      Way now wire dest i [p]
  | next {i : N} {p q : N × ℕ} {way : List (N × ℕ)} (hop : Hop now wire dest i p)
      (ends : Ends now dest p False) (h : Way now wire dest p.1 (q :: way)) :
      Way now wire dest i (p :: q :: way)

section Way

variable {N : Type} {now now' : N → Node} {wire : N → ℕ → List (N × ℕ)} {dest : UInt32} {i : N}
  {p q : N × ℕ} {way way' pre post : List (N × ℕ)}

lemma Ends.not_both (h : Ends now dest p True) (h' : Ends now dest p False) : False := by
  obtain ⟨e, he, hip⟩ := h
  obtain ⟨e', he', hip'⟩ := h'
  obtain rfl := Option.some.inj (he.symm.trans he')
  exact hip'.mp (hip.mpr trivial)

variable [DecidableEq N]

lemma Hop.unique (hp : Hop now wire dest i p) (hq : Hop now wire dest i q) : p = q := by
  obtain ⟨v, -, -, hv, -, hwire, -⟩ := hp
  obtain ⟨v', -, -, hv', -, hwire', -⟩ := hq
  obtain rfl := Option.some.inj (hv.symm.trans hv')
  exact List.singleton_inj.mp (hwire.symm.trans hwire')

lemma Way.unique (h : Way now wire dest i way) (h' : Way now wire dest i way') : way = way' := by
  induction h generalizing way' with
  | last hop ends =>
    cases h' with
    | last hop' => rw [hop.unique hop']
    | next hop' ends' =>
      obtain rfl := hop.unique hop'
      exact (ends.not_both ends').elim
  | next hop ends _ ih =>
    cases h' with
    | last hop' ends' =>
      obtain rfl := hop.unique hop'
      exact (ends'.not_both ends).elim
    | next hop' _ h' =>
      obtain rfl := hop.unique hop'
      rw [ih h']

lemma Way.head (h : Way now wire dest i way) : ∃ p rest, way = p :: rest ∧ Hop now wire dest i p := by
  cases h with
  | last hop => exact ⟨_, _, rfl, hop⟩
  | next hop => exact ⟨_, _, rfl, hop⟩

/-- From any device on it, the way goes on, or it ends there. -/
lemma Way.suffix (h : Way now wire dest i (pre ++ p :: post)) :
    (post = [] ∧ Ends now dest p True) ∨
      post ≠ [] ∧ Ends now dest p False ∧ Way now wire dest p.1 post := by
  induction pre generalizing i with
  | nil =>
    cases h with
    | last _ ends => exact Or.inl ⟨rfl, ends⟩
    | next _ ends h => exact Or.inr ⟨List.cons_ne_nil _ _, ends, h⟩
  | cons r pre ih =>
    rw [List.cons_append] at h
    generalize hrest : pre ++ p :: post = rest at h
    cases h with
    | last => simp at hrest
    | next _ _ h => exact ih (hrest ▸ h)

lemma Way.nodup (h : Way now wire dest i way) : way.Nodup := by
  induction h with
  | last => exact List.nodup_singleton _
  | @next i p q way hop ends h ih =>
    refine List.nodup_cons.mpr ⟨fun hmem => ?_, ih⟩
    -- where the way came back to a device, it would go on from there as it did before
    obtain ⟨pre, post, hsplit⟩ := List.append_of_mem hmem
    rcases (hsplit ▸ h).suffix with ⟨-, ends'⟩ | ⟨-, -, hpost⟩
    · exact ends'.not_both ends
    · have hlen := congrArg List.length (h.unique hpost)
      rw [hsplit, List.length_append, List.length_cons] at hlen
      omega

/-- The way depends on the devices, and on the routes of the hosts on it. -/
lemma Way.congr (h : Way now wire dest i way)
    (hdev : ∀ j, (now' j).currDevice = (now j).currDevice)
    (hroute : ∀ j ∈ i :: way.map Prod.fst, (now' j).route dest = (now j).route dest) :
    Way now' wire dest i way := by
  have hget : ∀ j id, (now' j).getDevice id = (now j).getDevice id := fun j id => by
    rw [Node.getDevice, hdev, ← Node.getDevice]
  have hhop : ∀ {i p}, (now' i).route dest = (now i).route dest → Hop now wire dest i p →
      Hop now' wire dest i p := by
    rintro i p hr ⟨v, d, e, hv, hd, hwire, he, hmac⟩
    exact ⟨v, d, e, hr.trans hv, (hget _ _).trans hd, hwire, (hget _ _).trans he, hmac⟩
  have hends : ∀ {p ends}, Ends now dest p ends → Ends now' dest p ends := by
    rintro p ends ⟨e, he, hip⟩
    exact ⟨e, (hget _ _).trans he, hip⟩
  induction h with
  | last hop ends => exact .last (hhop (hroute _ List.mem_cons_self) hop) (hends ends)
  | next hop ends _ ih =>
    refine .next (hhop (hroute _ List.mem_cons_self) hop) (hends ends) (ih fun j hj => ?_)
    exact hroute j (List.mem_cons_of_mem _ hj)

lemma mem_onLine {sent : List (ℕ × List UInt8)} {frame : List UInt8}
    (h : frame ∈ onLine wire i sent q) : ∃ p ∈ sent, p.2 = frame := by
  obtain ⟨p, hp, hframe⟩ := List.mem_flatMap.mp h
  exact ⟨p, hp, (List.eq_of_mem_replicate hframe).symm⟩

lemma onLine_singleton (id : ℕ) (frame : List UInt8) :
    onLine wire i [(id, frame)] q = List.replicate ((wire i id).count q) frame :=
  List.flatMap_singleton _ _

/-- Of another device, only the one that hears this one gets the frame. -/
lemma count_of_others {id : ℕ} (h : Network.others wire i id = [p]) (hq : q ≠ (i, id)) :
    (wire i id).count q = if q = p then 1 else 0 := by
  have hcount : (Network.others wire i id).count q = (wire i id).count q :=
    List.count_filter (decide_eq_true hq)
  rw [← hcount, h, List.count_singleton]
  exact if_congr (beq_iff_eq.trans eq_comm) rfl rfl

/-- A frame with a packet of the flow that can be passed on `k` times. -/
def Fit (f : IPFlow) (k : ℕ) (frame : List UInt8) : Prop :=
  ∃ buf, ∃ ttl : ℕ, ∃ destmac mac,
    frame = ipFrame f.src f.dest f.proto buf ttl destmac mac ∧ k ≤ ttl ∧ ttl ≤ 255

/-- A packet sent along a hop is heard at its end only. -/
lemma Hop.send {f : IPFlow} (h : Hop now wire f.dest i p) (hdest : f.dest ≠ 0xffffffff)
    (buf : List UInt8) (ttl : ℕ) (h255 : ttl ≤ 255) : ∃ sent,
      (now i).sendIPPacket f.src f.dest f.proto buf ttl = some sent ∧
      (∀ q, (onLine wire i sent q).filterMap (f.heard (now q.1) q.2) =
        if q = p then [buf] else []) ∧
      ∀ q, ∀ frame ∈ onLine wire i sent q, f.heard (now q.1) q.2 frame ≠ none →
        q = p ∧ Fit f ttl frame := by
  obtain ⟨v, d, e, hv, hd, hothers, he, hmac⟩ := h
  set frame := ipFrame f.src f.dest f.proto buf ttl v.dstMAC d.Mac with hframe
  have hline : ∀ q, (q = (i, v.deviceID) ∧ f.heard (now q.1) q.2 frame = none) ∨
      onLine wire i [(v.deviceID, frame)] q = List.replicate (if q = p then 1 else 0) frame := by
    intro q
    by_cases hq : q = (i, v.deviceID)
    · refine Or.inl ⟨hq, ?_⟩
      rw [hq, IPFlow.heard, hframe, Node.ownFrame_ipFrame hd, beq_self_eq_true, if_pos rfl]
    · rw [onLine_singleton, count_of_others hothers hq]
      exact Or.inr rfl
  have hp : p ≠ (i, v.deviceID) := by
    rintro rfl
    exact hmac (congrArg Device.Mac (Option.some.inj (he.symm.trans hd)))
  have hheard : f.heard (now p.1) p.2 frame = some buf := by
    rw [IPFlow.heard, hframe, Node.ownFrame_ipFrame he, beq_eq_false_iff_ne.mpr hmac.symm,
      if_neg Bool.false_ne_true, IPFlow.ofFrame_ipFrame, IPFlow.ofSending_self]
  refine ⟨[(v.deviceID, frame)], Node.sendIPPacket_of_route hdest hv hd _ _ _ _, fun q => ?_,
    fun q g hg hne => ?_⟩
  · rcases hline q with ⟨hq, hnone⟩ | hq
    · rw [if_neg fun h => hp (h.symm.trans hq), onLine_singleton]
      exact List.filterMap_eq_nil_iff.mpr fun g hg => List.eq_of_mem_replicate hg ▸ hnone
    · rw [hq]
      split_ifs with hqp
      · rw [hqp, List.replicate_one, List.filterMap_cons_some hheard, List.filterMap_nil]
      · rfl
  · obtain ⟨a, ha, rfl⟩ := mem_onLine hg
    obtain rfl := List.mem_singleton.mp ha
    rcases hline q with ⟨-, hnone⟩ | hq
    · exact absurd hnone hne
    · rw [hq] at hg
      split_ifs at hg with hqp
      · exact ⟨hqp, buf, ttl, v.dstMAC, d.Mac, rfl, le_refl _, h255⟩
      · cases hg

end Way

lemma Fit.mono {f : IPFlow} {k m : ℕ} {frame : List UInt8} (h : Fit f k frame) (hm : m ≤ k) :
    Fit f m frame := by
  obtain ⟨buf, ttl, destmac, mac, hframe, hk, h255⟩ := h
  exact ⟨buf, ttl, destmac, mac, hframe, hm.trans hk, h255⟩

namespace Lines
open Network (lineHost lineWire)

variable {N : Type}

/-- The packets of the flow that were sent, that were handed to IP callbacks, that wait to be heard in
the line of a device, and that were lost. -/
def sentOf (s : Lines N) (f : IPFlow) : List (List UInt8) := s.sent.filterMap (fun a => f.ofSending a.2)

def takenOf (s : Lines N) (f : IPFlow) : List (List UInt8) :=
  s.taken.filterMap (fun a => f.ofPacket a.2)

def held (s : Lines N) (f : IPFlow) (p : N × ℕ) : List (List UInt8) :=
  (s.line p).filterMap (f.heard (s.host p.1) p.2)

def lostOf (s : Lines N) (f : IPFlow) : List (List UInt8) :=
  s.lost.filterMap (fun a => f.heard (s.host a.1.1) a.1.2 a.2)

/-- The packets of the flow that have come along the way or are still to come. -/
def arriving (s : Lines N) (f : IPFlow) (way : List (N × ℕ)) : List (List UInt8) :=
  s.takenOf f ++ along (s.held f) way

variable [DecidableEq N] {wire : N → ℕ → List (N × ℕ)} {f : IPFlow} {i : N} {way : List (N × ℕ)}
  {s t : Lines N}

lemma held_emit (s : Lines N) (j : N) (sent : List (ℕ × List UInt8)) (q : N × ℕ) :
    (s.emit wire j sent).held f q =
      s.held f q ++ (onLine wire j sent q).filterMap (f.heard (s.host q.1) q.2) :=
  List.filterMap_append

/-- What holds in every state: nothing gets on the way or off it but by its ends, and what is lost. -/
structure InOrder (wire : N → ℕ → List (N × ℕ)) (f : IPFlow) (i : N) (way : List (N × ℕ))
    (s : Lines N) : Prop where
  leads : Way s.host wire f.dest i way
  fit : ∀ p ∈ way, ∀ frame ∈ s.line p, f.heard (s.host p.1) p.2 frame ≠ none →
    Fit f (way.length - (way.idxOf p + 1)) frame
  off : ∀ p, p ∉ way → s.held f p = []
  order : List.Sublist (s.arriving f way) (s.sentOf f)
  all : List.Perm (s.arriving f way ++ s.lostOf f) (s.sentOf f)
  taken : ∀ a ∈ s.taken, f.ofPacket a.2 ≠ none → ∃ id, way.getLast? = some (a.1, id)

/-- Without losses, everything arrives. -/
lemma InOrder.arriving_eq (h : InOrder wire f i way s) (hlost : s.lostOf f = []) :
    s.arriving f way = s.sentOf f := by
  have hall := h.all
  rw [hlost, List.append_nil] at hall
  exact h.order.eq_of_length hall.length_eq

lemma InOrder.of_arriving (h : InOrder wire f i way s) (leads : Way t.host wire f.dest i way)
    (fit : ∀ p ∈ way, ∀ frame ∈ t.line p, f.heard (t.host p.1) p.2 frame ≠ none →
      Fit f (way.length - (way.idxOf p + 1)) frame)
    (off : ∀ p, p ∉ way → t.held f p = []) (hsent : t.sentOf f = s.sentOf f)
    (hlost : t.lostOf f = s.lostOf f) (harriving : t.arriving f way = s.arriving f way)
    (taken : ∀ a ∈ t.taken, f.ofPacket a.2 ≠ none → ∃ id, way.getLast? = some (a.1, id)) :
    InOrder wire f i way t := by
  refine ⟨leads, fit, off, ?_, ?_, taken⟩
  · rw [harriving, hsent]
    exact h.order
  · rw [harriving, hsent, hlost]
    exact h.all

/-- Frames of other flows get on the lines. -/
lemma InOrder.emit (h : InOrder wire f i way s) (j : N) {sent : List (ℕ × List UInt8)}
    (hsent : ∀ p ∈ sent, f.ofFrame p.2 = none) : InOrder wire f i way (s.emit wire j sent) := by
  have hnone : ∀ q, ∀ frame ∈ onLine wire j sent q, f.heard (s.host q.1) q.2 frame = none :=
    fun q frame hframe => by
      obtain ⟨p, hp, rfl⟩ := mem_onLine hframe
      exact IPFlow.heard_of_ofFrame (hsent p hp) _ _
  have hheld : (s.emit wire j sent).held f = s.held f := funext fun q => by
    rw [held_emit, List.filterMap_eq_nil_iff.mpr (hnone q), List.append_nil]
  have harriving : (s.emit wire j sent).arriving f way = s.arriving f way := by
    rw [arriving, hheld]
    rfl
  refine h.of_arriving h.leads (fun p hp frame hframe hflow => ?_) (fun p hp => ?_) rfl rfl harriving
    h.taken
  · rcases List.mem_append.mp hframe with hframe | hframe
    · exact h.fit p hp frame hframe hflow
    · exact absurd (hnone p frame hframe) hflow
  · rw [hheld]
    exact h.off p hp

/-- A packet of the flow sets out. -/
lemma InOrder.send (h : InOrder wire f i way s) (hdest : f.dest ≠ 0xffffffff) {p : Sending}
    {buf : List UInt8} (hp : f.ofSending p = some buf) {ttl : ℕ} (httl : p.ttl = ttl)
    (hlen : way.length ≤ ttl + 1) (h255 : ttl ≤ 255) (hs : s.step wire (.send i p) = some t) :
    InOrder wire f i way t := by
  obtain ⟨q, rest, rfl, hop⟩ := h.leads.head
  obtain ⟨sent, hsend, hline, hfit⟩ := hop.send hdest buf ttl h255
  obtain ⟨sent', hsent', hs⟩ := Option.bind_eq_some_iff.mp hs
  obtain rfl : sent' = sent := by
    rw [IPFlow.ofSending_eq_some hp, httl, Node.send] at hsent'
    exact Option.some.inj (hsent'.symm.trans hsend)
  obtain rfl := Option.some.inj hs
  set t := Lines.emit wire { s with sent := s.sent ++ [(i, p)] } i sent'
  have hheld : ∀ r, t.held f r = s.held f r ++ if r = q then [buf] else [] := fun r => by
    rw [held_emit]
    exact congrArg (List.append _) (hline r)
  have harriving : t.arriving f (q :: rest) = s.arriving f (q :: rest) ++ [buf] := by
    rw [arriving, along_enter (b := buf) h.leads.nodup ((hheld q).trans (by rw [if_pos rfl]))
      (fun r hr => (hheld r).trans (by rw [if_neg hr, List.append_nil])), ← List.append_assoc]
    rfl
  have hsent : t.sentOf f = s.sentOf f ++ [buf] :=
    List.filterMap_append.trans (congrArg (List.append _) (List.filterMap_cons_some hp))
  refine ⟨h.leads, fun r hr frame hframe hne => ?_, fun r hr => ?_, ?_, ?_, h.taken⟩
  · rcases List.mem_append.mp hframe with hframe | hframe
    · exact h.fit r hr frame hframe hne
    · obtain ⟨rfl, hgoes⟩ := hfit r frame hframe hne
      rw [List.idxOf_cons_self]
      rw [List.length_cons] at hlen ⊢
      exact hgoes.mono (by omega)
  · have hrq : r ≠ q := fun hrq => hr (hrq ▸ List.mem_cons_self)
    rw [hheld r, h.off r hr, if_neg hrq, List.append_nil]
  · rw [harriving, hsent]
    exact h.order.append_right [buf]
  · have hlost : t.lostOf f = s.lostOf f := rfl
    rw [harriving, hsent, hlost, List.append_assoc]
    calc s.arriving f (q :: rest) ++ ([buf] ++ s.lostOf f)
      _ ~ s.arriving f (q :: rest) ++ (s.lostOf f ++ [buf]) := List.perm_append_comm.append_left _
      _ = s.arriving f (q :: rest) ++ s.lostOf f ++ [buf] := (List.append_assoc _ _ _).symm
      _ ~ s.sentOf f ++ [buf] := h.all.append_right [buf]

lemma step_lose_eq_some {j : N} {id k : ℕ} : s.step wire (.lose j id k) = some t ↔
    ∃ frame, (s.line (j, id))[k]? = some frame ∧
      { s with line := Function.update s.line (j, id) ((s.line (j, id)).eraseIdx k)
               lost := s.lost ++ [((j, id), frame)] } = t := by
  simp only [step, Option.bind_eq_bind, Option.bind_eq_some_iff, Option.some.injEq]

/-- A frame is lost. -/
lemma InOrder.lose (h : InOrder wire f i way s) {j : N} {id k : ℕ}
    (hs : s.step wire (.lose j id k) = some t) : InOrder wire f i way t := by
  obtain ⟨frame, hk, rfl⟩ := step_lose_eq_some.mp hs
  set t : Lines N := { s with
    line := Function.update s.line (j, id) ((s.line (j, id)).eraseIdx k)
    lost := s.lost ++ [((j, id), frame)] }
  have hother : ∀ q, q ≠ (j, id) → t.held f q = s.held f q := fun q hq =>
    congrArg (List.filterMap _) (Function.update_of_ne hq _ _)
  have hself : t.held f (j, id) = ((s.line (j, id)).eraseIdx k).filterMap (f.heard (s.host j) id) :=
    congrArg (List.filterMap _) (Function.update_self _ _ _)
  have hsub : List.Sublist (t.held f (j, id)) (s.held f (j, id)) := by
    rw [hself]
    exact (List.eraseIdx_sublist _ _).filterMap _
  have hlost : t.lostOf f = s.lostOf f ++ (f.heard (s.host j) id frame).toList := by
    refine List.filterMap_append.trans (congrArg (List.append _) ?_)
    cases hflow : f.heard (s.host j) id frame with
    | none => exact List.filterMap_cons_none hflow
    | some buf => exact List.filterMap_cons_some hflow
  have hall : List.Perm (t.held f (j, id) ++ (f.heard (s.host j) id frame).toList)
      (s.held f (j, id)) := by
    obtain ⟨hlt, rfl⟩ := List.getElem?_eq_some_iff.mp hk
    have hperm := (List.getElem_cons_eraseIdx_perm hlt).filterMap (f.heard (s.host j) id)
    refine List.perm_append_comm.trans (List.Perm.trans ?_ hperm)
    rw [hself]
    cases hflow : f.heard (s.host j) id (s.line (j, id))[k] with
    | none => rw [List.filterMap_cons_none hflow]; exact List.Perm.refl _
    | some buf => rw [List.filterMap_cons_some hflow]; exact List.Perm.refl _
  have hfit : ∀ p ∈ way, ∀ g ∈ t.line p, f.heard (t.host p.1) p.2 g ≠ none →
      Fit f (way.length - (way.idxOf p + 1)) g := fun p hp g hg hne => by
    refine h.fit p hp g ?_ hne
    change g ∈ Function.update s.line (j, id) _ p at hg
    by_cases hpj : p = (j, id)
    · rw [hpj, Function.update_self] at hg
      exact hpj ▸ List.mem_of_mem_eraseIdx hg
    · rwa [Function.update_of_ne hpj] at hg
  by_cases hmem : (j, id) ∈ way
  · obtain ⟨hway, hperm⟩ := along_lose h.leads.nodup hmem hsub hall hother
    refine ⟨h.leads, hfit, fun p hp => ?_, (hway.append_left _).trans h.order, ?_, h.taken⟩
    · rw [hother p fun hpj => hp (hpj ▸ hmem)]
      exact h.off p hp
    · have htaken : t.takenOf f = s.takenOf f := rfl
      rw [arriving, htaken, hlost]
      calc s.takenOf f ++ along (t.held f) way ++ (s.lostOf f ++ (f.heard (s.host j) id frame).toList)
        _ ~ s.takenOf f ++ along (t.held f) way ++
            ((f.heard (s.host j) id frame).toList ++ s.lostOf f) := List.perm_append_comm.append_left _
        _ = s.takenOf f ++ (along (t.held f) way ++ (f.heard (s.host j) id frame).toList) ++
            s.lostOf f := by simp only [List.append_assoc]
        _ ~ s.takenOf f ++ along (s.held f) way ++ s.lostOf f :=
          (hperm.append_left _).append_right _
        _ ~ s.sentOf f := h.all
  · have hnil : s.held f (j, id) = [] := h.off _ hmem
    rw [hnil, List.perm_nil, List.append_eq_nil_iff] at hall
    obtain ⟨hempty, hnone⟩ := hall
    have hheld : t.held f = s.held f := funext fun q => by
      by_cases hq : q = (j, id)
      · rw [hq, hnil, hempty]
      · exact hother q hq
    refine h.of_arriving h.leads hfit (fun p hp => hheld ▸ h.off p hp) rfl ?_ ?_ h.taken
    · rw [hlost, hnone, List.append_nil]
    · exact congrArg (fun held => s.takenOf f ++ along held way) hheld

/-- The state after the host has received the frame at the head of a line. -/
def received (s : Lines N) (p : N × ℕ) (rest : List (List UInt8)) (out : Node.Outcome) : Lines N :=
  { s with
    host := Function.update s.host p.1 out.node
    line := Function.update s.line p rest
    taken := s.taken ++ out.delivered.toList.map (fun packet => (p.1, packet)) }

lemma step_deliver_eq_some {j : N} {id : ℕ} {tmp : UInt8} :
    s.step wire (.deliver j id tmp) = some t ↔ ∃ frame rest out, s.line (j, id) = frame :: rest ∧
      (s.host j).recvFrame frame id tmp = some out ∧
      (s.received (j, id) rest out).emit wire j out.sent = t := by
  constructor
  · intro h
    simp only [step] at h
    split at h
    · cases h
    · rename_i frame rest hline
      obtain ⟨out, hout, h⟩ := Option.bind_eq_some_iff.mp h
      exact ⟨frame, rest, out, hline, hout, Option.some.inj h⟩
  · rintro ⟨frame, rest, out, hline, hout, rfl⟩
    simp only [step, hline, hout]
    rfl

section Received

variable {p : N × ℕ} {frame : List UInt8} {rest : List (List UInt8)} {out : Node.Outcome}

lemma received_host : (s.received p rest out).host = Function.update s.host p.1 out.node := rfl

lemma received_line : (s.received p rest out).line = Function.update s.line p rest := rfl

lemma takenOf_received : (s.received p rest out).takenOf f =
    s.takenOf f ++ (out.delivered.bind f.ofPacket).toList := by
  rw [takenOf, received, List.filterMap_append, ← takenOf, List.filterMap_map]
  cases out.delivered with
  | none => rfl
  | some packet =>
    refine congrArg (List.append _) ?_
    simp only [Option.toList_some, Option.bind_some, List.filterMap_cons, Function.comp_apply,
      List.filterMap_nil]
    cases f.ofPacket packet <;> rfl

lemma mem_of_mem_received (hline : s.line p = frame :: rest) {q : N × ℕ} {g : List UInt8}
    (h : g ∈ (s.received p rest out).line q) : g ∈ s.line q := by
  by_cases hq : q = p
  · rw [received_line, hq, Function.update_self] at h
    rw [hq, hline]
    exact List.mem_cons_of_mem _ h
  · rwa [received_line, Function.update_of_ne hq] at h

variable (hdev : out.node.currDevice = (s.host p.1).currDevice)

include hdev

lemma received_currDevice (j : N) :
    ((s.received p rest out).host j).currDevice = (s.host j).currDevice := by
  by_cases hj : j = p.1
  · rw [received_host, hj, Function.update_self, hdev]
  · rw [received_host, Function.update_of_ne hj]

lemma received_heard (q : N × ℕ) :
    f.heard ((s.received p rest out).host q.1) q.2 = f.heard (s.host q.1) q.2 :=
  funext fun frame => IPFlow.heard_congr (received_currDevice hdev q.1) q.2 frame

lemma lostOf_received : (s.received p rest out).lostOf f = s.lostOf f :=
  List.filterMap_congr fun a _ => congrFun (received_heard hdev a.1) a.2

lemma held_received_of_ne {q : N × ℕ} (h : q ≠ p) : (s.received p rest out).held f q = s.held f q := by
  rw [held, received_heard hdev, received_line, Function.update_of_ne h, ← held]

lemma held_received (hline : s.line p = frame :: rest) : s.held f p =
    (f.heard (s.host p.1) p.2 frame).toList ++ (s.received p rest out).held f p := by
  rw [held, hline, held, received_heard hdev, received_line, Function.update_self]
  cases hflow : f.heard (s.host p.1) p.2 frame with
  | none => exact List.filterMap_cons_none hflow
  | some buf => exact List.filterMap_cons_some hflow

end Received

/-- A frame that is not heard as one of the flow is received. -/
lemma InOrder.receive_other (h : InOrder wire f i way s) (hproto : f.proto ≠ L3_MYARP) {p : N × ℕ}
    {frame : List UInt8} {rest : List (List UInt8)} {tmp : UInt8} {out : Node.Outcome}
    (hline : s.line p = frame :: rest) (hout : (s.host p.1).recvFrame frame p.2 tmp = some out)
    (hnone : f.heard (s.host p.1) p.2 frame = none)
    (hroute : p.1 ∈ i :: way.map Prod.fst → out.node.route f.dest = (s.host p.1).route f.dest) :
    InOrder wire f i way ((s.received p rest out).emit wire p.1 out.sent) := by
  obtain ⟨hsent, hdelivered⟩ := IPFlow.recvFrame_heard_none hproto hnone hout
  have hdev := (Node.recvFrame_cases hout).1
  have hheld : (s.received p rest out).held f = s.held f := funext fun q => by
    by_cases hq : q = p
    · rw [hq, held_received hdev hline, hnone]
      rfl
    · exact held_received_of_ne hdev hq
  have htaken : out.delivered.bind f.ofPacket = none := by
    cases hd : out.delivered with
    | none => rfl
    | some packet => exact hdelivered packet hd
  refine InOrder.emit (h.of_arriving (h.leads.congr (received_currDevice hdev) fun j hj => ?_)
    (fun q hq g hg hflow => ?_) (fun q hq => ?_) rfl (lostOf_received hdev) ?_
    fun a ha hflow => ?_) p.1 hsent
  · by_cases hjp : j = p.1
    · subst hjp
      rw [received_host, Function.update_self]
      exact hroute hj
    · rw [received_host, Function.update_of_ne hjp]
  · rw [received_heard hdev] at hflow
    exact h.fit q hq g (mem_of_mem_received hline hg) hflow
  · rw [hheld]
    exact h.off q hq
  · rw [arriving, hheld, takenOf_received, htaken, Option.toList_none, List.append_nil, ← arriving]
  · rcases List.mem_append.mp ha with ha | ha
    · exact h.taken a ha hflow
    · obtain ⟨packet, hp, rfl⟩ := List.mem_map.mp ha
      exact absurd (hdelivered packet (Option.mem_toList.mp hp)) hflow

/-- A frame of the flow is received at the end of the way. -/
lemma InOrder.receive_last {pre : List (N × ℕ)} {p : N × ℕ} (h : InOrder wire f i (pre ++ [p]) s)
    {frame buf packet : List UInt8} {rest : List (List UInt8)} (hline : s.line p = frame :: rest)
    (hflow : f.heard (s.host p.1) p.2 frame = some buf) (hpacket : f.ofPacket packet = some buf) :
    InOrder wire f i (pre ++ [p]) (s.received p rest ⟨s.host p.1, [], some packet⟩) := by
  set out : Node.Outcome := ⟨s.host p.1, [], some packet⟩
  have hhost : (s.received p rest out).host = s.host := Function.update_eq_self _ _
  have hdev : out.node.currDevice = (s.host p.1).currDevice := rfl
  have hheld : s.held f p = buf :: (s.received p rest out).held f p := by
    rw [held_received hdev hline, hflow]
    rfl
  refine h.of_arriving (hhost ▸ h.leads) (fun q hq g hg hne => ?_) (fun q hq => ?_) rfl
    (lostOf_received hdev) ?_ fun a ha hne => ?_
  · rw [received_heard hdev] at hne
    exact h.fit q hq g (mem_of_mem_received hline hg) hne
  · have hqp : q ≠ p := by
      rintro rfl
      exact hq (List.mem_append_right _ (List.mem_singleton_self q))
    rw [held_received_of_ne hdev hqp]
    exact h.off q hq
  · have hleave := along_leave h.leads.nodup hheld fun q hq => held_received_of_ne hdev hq
    rw [arriving, arriving, hleave, takenOf_received, Option.bind_some, hpacket, Option.toList_some,
      List.append_assoc]
    rfl
  · rcases List.mem_append.mp ha with ha | ha
    · exact h.taken a ha hne
    · rw [List.mem_singleton.mp ha, List.getLast?_append_cons, List.getLast?_singleton]
      exact ⟨p.2, rfl⟩

/-- Elsewhere it moves on to the next device. -/
lemma InOrder.receive_next {pre post : List (N × ℕ)} {p q : N × ℕ}
    (h : InOrder wire f i (pre ++ p :: q :: post) s) {frame buf : List UInt8}
    {rest : List (List UInt8)} {sent : List (ℕ × List UInt8)} {k : ℕ} (hk : post.length ≤ k)
    (hline : s.line p = frame :: rest) (hflow : f.heard (s.host p.1) p.2 frame = some buf)
    (hheard : ∀ r, (onLine wire p.1 sent r).filterMap (f.heard (s.host r.1) r.2) =
      if r = q then [buf] else [])
    (hfit : ∀ r, ∀ g ∈ onLine wire p.1 sent r, f.heard (s.host r.1) r.2 g ≠ none →
      r = q ∧ Fit f k g) :
    InOrder wire f i (pre ++ p :: q :: post)
      ((s.received p rest ⟨s.host p.1, sent, none⟩).emit wire p.1 sent) := by
  set out : Node.Outcome := ⟨s.host p.1, sent, none⟩
  have hhost : (s.received p rest out).host = s.host := Function.update_eq_self _ _
  have hdev : out.node.currDevice = (s.host p.1).currDevice := rfl
  have hnodup := h.leads.nodup
  obtain ⟨-, hrear, hdisj⟩ := List.nodup_append.mp hnodup
  have hpq : q ≠ p := fun hqp => (List.nodup_cons.mp hrear).1 (hqp ▸ List.mem_cons_self)
  have hheld : ∀ r, ((s.received p rest out).emit wire p.1 sent).held f r =
      (s.received p rest out).held f r ++ if r = q then [buf] else [] := fun r => by
    rw [held_emit, received_heard hdev, hheard]
  have hother : ∀ r, r ≠ p → r ≠ q →
      ((s.received p rest out).emit wire p.1 sent).held f r = s.held f r := fun r hrp hrq => by
    rw [hheld r, if_neg hrq, List.append_nil, held_received_of_ne hdev hrp]
  have hidx : (pre ++ p :: q :: post).idxOf q = pre.length + 1 := by
    have hq : q ∉ pre := fun hq => hdisj q hq q (List.mem_cons_of_mem _ List.mem_cons_self) rfl
    rw [List.idxOf_append_of_notMem hq, List.idxOf_cons_ne _ hpq.symm, List.idxOf_cons_self]
  have hlost : (s.received p rest out).lostOf f = s.lostOf f := lostOf_received hdev
  refine h.of_arriving (hhost ▸ h.leads) (fun r hr g hg hne => ?_) (fun r hr => ?_) rfl hlost ?_
    fun a ha hne => ?_
  · change f.heard ((s.received p rest out).host r.1) r.2 g ≠ none at hne
    rw [received_heard hdev] at hne
    rcases List.mem_append.mp hg with hg | hg
    · exact h.fit r hr g (mem_of_mem_received hline hg) hne
    · obtain ⟨rfl, hgoes⟩ := hfit r g hg hne
      refine hgoes.mono ?_
      rw [hidx, List.length_append, List.length_cons, List.length_cons]
      omega
  · rw [hother r (fun hrp => hr (hrp ▸ by simp)) fun hrq => hr (hrq ▸ by simp)]
    exact h.off r hr
  · have htaken : (s.received p rest out).takenOf f = s.takenOf f :=
      takenOf_received.trans (List.append_nil _)
    have hleave : s.held f p =
        buf :: ((s.received p rest out).emit wire p.1 sent).held f p := by
      rw [hheld p, if_neg hpq.symm, List.append_nil, held_received hdev hline, hflow]
      rfl
    have henter : ((s.received p rest out).emit wire p.1 sent).held f q = s.held f q ++ [buf] := by
      rw [hheld q, if_pos rfl, held_received_of_ne hdev hpq]
    rw [arriving, arriving, along_relay hnodup hleave henter hother]
    exact congrArg (· ++ _) htaken
  · rw [Lines.emit, received] at ha
    exact h.taken a (by simpa using ha) hne

lemma InOrder.receive_flow (h : InOrder wire f i way s) (hdest : f.dest ≠ 0xffffffff)
    (hproto : f.proto ≠ L3_MYARP) {p : N × ℕ} {frame buf : List UInt8} {rest : List (List UInt8)}
    {tmp : UInt8} {out : Node.Outcome} (hline : s.line p = frame :: rest)
    (hflow : f.heard (s.host p.1) p.2 frame = some buf)
    (hout : (s.host p.1).recvFrame frame p.2 tmp = some out) :
    InOrder wire f i way ((s.received p rest out).emit wire p.1 out.sent) := by
  have hp : p ∈ way := by
    by_contra hoff
    have hheld := held_received (f := f) (Node.recvFrame_cases hout).1 hline
    rw [h.off p hoff, hflow] at hheld
    cases hheld
  have hfit := h.fit p hp frame (hline ▸ List.mem_cons_self) (by rw [hflow]; exact Option.some_ne_none _)
  obtain ⟨pre, post, rfl⟩ := List.append_of_mem hp
  have hidx : (pre ++ p :: post).idxOf p = pre.length := by
    have hpre : p ∉ pre := fun hpre =>
      (List.nodup_append.mp h.leads.nodup).2.2 p hpre p List.mem_cons_self rfl
    rw [List.idxOf_append_of_notMem hpre, List.idxOf_cons_self, Nat.add_zero]
  obtain ⟨buf', ttl, destmac, mac, rfl, hk, h255⟩ := hfit
  rw [hidx, List.length_append, List.length_cons] at hk
  obtain ⟨hown, hbuf⟩ := IPFlow.heard_eq_some hflow
  rw [IPFlow.ofFrame_ipFrame, IPFlow.ofSending_self, Option.some.injEq] at hbuf
  subst hbuf
  have hmac : ∀ {e}, (s.host p.1).getDevice p.2 = some e → e.Mac ≠ mac := fun he => by
    rw [Node.ownFrame_ipFrame he] at hown
    exact (beq_eq_false_iff_ne.mp hown).symm
  rcases h.leads.suffix with ⟨rfl, e, he, hip⟩ | ⟨hne, ⟨e, he, hip⟩, hway⟩
  · rw [Node.recvFrame_delivers he (hip.mpr trivial) (hmac he), Option.some.injEq] at hout
    subst hout
    have hpacket := (IPFlow.ofPacket_constructIPPacket f.src f.dest f.proto buf' (ttl : ℤ)).trans
      (IPFlow.ofSending_self buf' ttl)
    exact (h.receive_last hline hflow hpacket).emit p.1 nofun
  · obtain ⟨q, post, rfl, hop⟩ := hway.head
    rw [List.length_cons] at hk
    obtain ⟨sent, hsend, hheard, hfit⟩ := hop.send hdest buf' (ttl - 1) (by omega)
    rw [Node.recvFrame_passes he (fun hd => (hip.mp hd).elim) (hmac he) hproto (by omega) h255 hsend,
      Option.some.injEq] at hout
    subst hout
    exact h.receive_next (k := ttl - 1) (by omega) hline hflow hheard hfit

/-- The step leaves the routes of the hosts on the way alone, and a packet of the flow is sent by the
first of them, with a TTL that is large enough for the way. -/
def steady (wire : N → ℕ → List (N × ℕ)) (f : IPFlow) (i : N) (way : List (N × ℕ)) (s : Lines N)
    (e : LinesEvent N) : Bool :=
  (s.step wire e).all (fun t => (i :: way.map Prod.fst).all
    (fun j => (t.host j).route f.dest == (s.host j).route f.dest)) &&
  match e with
  | .send j p => (f.ofSending p).isNone || j = i && way.length ≤ p.ttl + 1 && p.ttl ≤ 255
  | _ => true

lemma InOrder.step (h : InOrder wire f i way s) (hdest : f.dest ≠ 0xffffffff)
    (hproto : f.proto ≠ L3_MYARP) {e : LinesEvent N} (hsteady : steady wire f i way s e = true)
    (hs : s.step wire e = some t) : InOrder wire f i way t := by
  obtain ⟨hroute, hsender⟩ := Bool.and_eq_true_iff.mp hsteady
  rw [hs, Option.all_some, List.all_eq_true] at hroute
  cases e with
  | deliver j id tmp =>
    obtain ⟨frame, rest, out, hline, hout, rfl⟩ := step_deliver_eq_some.mp hs
    cases hflow : f.heard (s.host j) id frame with
    | some buf => exact h.receive_flow (p := (j, id)) hdest hproto hline hflow hout
    | none =>
      refine h.receive_other (p := (j, id)) hproto hline hout hflow fun hj => ?_
      have hsame := beq_iff_eq.mp (hroute j hj)
      rwa [Lines.emit, received_host, Function.update_self] at hsame
  | lose j id k => exact h.lose hs
  | sendArp j tmp =>
    obtain ⟨sent, hsent, hs⟩ := Option.bind_eq_some_iff.mp hs
    obtain rfl := Option.some.inj hs
    exact h.emit j fun p hp => IPFlow.ofFrame_of_sendArp hproto hsent hp
  | send j p =>
    cases hflow : f.ofSending p with
    | none =>
      obtain ⟨sent, hsent, hs⟩ := Option.bind_eq_some_iff.mp hs
      obtain rfl := Option.some.inj hs
      have hlog : InOrder wire f i way { s with sent := s.sent ++ [(j, p)] } := by
        refine h.of_arriving h.leads h.fit h.off ?_ rfl rfl h.taken
        have hnone : [(j, p)].filterMap (fun a => f.ofSending a.2) = [] :=
          List.filterMap_cons_none hflow
        rw [sentOf, List.filterMap_append, hnone, List.append_nil, ← sentOf]
      exact hlog.emit j fun q hq => (IPFlow.ofFrame_of_send hsent hq).trans hflow
    | some buf =>
      dsimp only at hsender
      rw [hflow] at hsender
      simp only [Option.isNone_some, Bool.false_or, Bool.and_eq_true, decide_eq_true_eq] at hsender
      obtain ⟨⟨rfl, hlen⟩, h255⟩ := hsender
      obtain ⟨q, rest, rfl, -⟩ := h.leads.head
      have hnonneg : 0 ≤ p.ttl := by
        rw [List.length_cons] at hlen
        omega
      exact h.send hdest hflow (Int.toNat_of_nonneg hnonneg).symm (by omega) (by omega) hs

/-- A way on which nothing of the flow has happened yet. -/
lemma InOrder.of_empty (hway : Way s.host wire f.dest i way) (hheld : ∀ p, s.held f p = [])
    (hsent : s.sentOf f = []) (htaken : s.takenOf f = []) (hlost : s.lostOf f = []) :
    InOrder wire f i way s := by
  have harriving : s.arriving f way = [] := by
    rw [arriving, htaken, along_eq_nil.mpr fun p _ => hheld p, List.append_nil]
  refine ⟨hway, fun p _ frame hframe hne => ?_, fun p _ => hheld p, ?_, ?_, fun a ha hne => ?_⟩
  · exact absurd (List.filterMap_eq_nil_iff.mp (hheld p) frame hframe) hne
  · rw [harriving, hsent]
  · rw [harriving, hsent, hlost]
    exact List.Perm.refl _
  · exact absurd (List.filterMap_eq_nil_iff.mp htaken a ha) hne

end Lines

end ITCP
