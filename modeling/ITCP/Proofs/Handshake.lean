import ITCP.Proofs.Copies

/-!
# The passive side of the handshake

A listening socket while packets are received and processed in any interleaving. Everything that
concerns one socket is in its `View`: the record, the packets queued on it, and the packets
processed on it so far.
-/

namespace ITCP
open Lib

/-- What the kernel holds for one descriptor. -/
structure View where
  sock : MySocket
  queue : List Segment
  handled : List Handled

lemma View.ne_of_queue {v v' : View} (h : v'.queue ≠ v.queue) : v' ≠ v := by
  rintro rfl
  exact h rfl

namespace Kernel

def view (k : Kernel) (fd : ℤ) : Option View :=
  (k.sockets.find? fd).map
    (fun s => ⟨s, k.queue fd, k.log.filter (fun h => h.fd = fd)⟩)

variable {k k' : Kernel} {fd : ℤ} {v v' : View} {p : Segment} {tmp : UInt8}

lemma view_eq_some : k.view fd = some v ↔ k.sockets.find? fd = some v.sock ∧
    v.queue = k.queue fd ∧ v.handled = k.log.filter (fun h => h.fd = fd) := by
  unfold view
  cases k.sockets.find? fd with
  | none => simp
  | some s =>
    obtain ⟨s', q, l⟩ := v
    simp [eq_comm]

lemma queue_snoc (k : Kernel) (m : SocketSet) (fd fd' : ℤ) (p : Segment) :
    queue { k with sockets := m, pending := k.pending ++ [(fd', p)] } fd =
      if fd' = fd then k.queue fd ++ [p] else k.queue fd := by
  unfold queue
  split_ifs with h <;> simp [h]

lemma recv_eq_some : k.recv p = some k' ↔ ∃ fd m, recvIPPacket k.sockets p = some (fd, m) ∧
    k' = { k with sockets := m, pending := k.pending ++ [(fd, p)] } := by
  unfold recv
  rw [Option.bind_eq_bind, Option.bind_eq_some_iff]
  constructor
  · rintro ⟨⟨fd, m⟩, hm, hk⟩
    cases hk
    exact ⟨fd, m, hm, rfl⟩
  · rintro ⟨fd, m, hm, rfl⟩
    exact ⟨(fd, m), hm, rfl⟩

lemma process_eq_some : k.process tmp = some k' ↔ ∃ fd p rest s t out,
    k.pending = (fd, p) :: rest ∧ k.sockets.find? fd = some s ∧
      s.readIPPacket p tmp = some (t, out) ∧
      k' = { k with
        sockets := k.sockets.modify fd (fun _ => t)
        pending := rest
        log := k.log ++ [⟨fd, p, s.tcb.status, t.tcb.status, out⟩] } := by
  unfold process
  cases hp : k.pending with
  | nil => simp
  | cons a rest =>
    obtain ⟨fd, p⟩ := a
    simp only [Option.bind_eq_bind, Option.bind_eq_some_iff]
    constructor
    · rintro ⟨s, hs, ⟨t, out⟩, ht, hk⟩
      cases hk
      exact ⟨fd, p, rest, s, t, out, rfl, hs, ht, rfl⟩
    · rintro ⟨fd', p', rest', s, t, out, heq, hs, ht, rfl⟩
      cases heq
      exact ⟨s, hs, (t, out), ht, rfl⟩

/-- What `recvIPPacket` can do to a socket: leave it alone, queue a SYN on it and overwrite its
address, or queue another packet on it. -/
inductive RecvView (p : Segment) (fd : ℤ) (v : View) : View → Prop
  | elsewhere : RecvView p fd v v
  | syn : p.isSynOnly → v.sock.listensFor p →
      RecvView p fd v { v with
        sock := v.sock.setAddress p.info.mirror
        queue := v.queue ++ [p] }
  | other : ¬p.isSynOnly → v.sock.address = p.info.mirror ∨ fd = 100 →
      RecvView p fd v { v with queue := v.queue ++ [p] }

lemma recv_view (h : k.recv p = some k') (hv : k.view fd = some v) :
    ∃ v', k'.view fd = some v' ∧ RecvView p fd v v' ∧
      (v' ≠ v → (recvIPPacket k.sockets p).map Prod.fst = some fd) := by
  obtain ⟨fd', m, hm, rfl⟩ := recv_eq_some.mp h
  obtain ⟨hs, hq, hl⟩ := view_eq_some.mp hv
  rw [hm]
  by_cases hfd : fd' = fd
  · subst hfd
    by_cases hp : p.isSynOnly
    · obtain ⟨⟨s, hs', hlisten⟩, -, rfl⟩ := (recvIPPacket_syn hp (fits_of_recvIPPacket hm)).mp hm
      rw [hs, Option.some.injEq] at hs'
      subst hs'
      refine ⟨{ v with sock := v.sock.setAddress p.info.mirror, queue := v.queue ++ [p] },
        view_eq_some.mpr ⟨?_, ?_, hl⟩, .syn hp hlisten, fun _ => rfl⟩
      · rw [OrdMap.find?_modify_self, hs, Option.map_some]
      · rw [queue_snoc, if_pos rfl, hq]
    · obtain ⟨rfl, hchoice⟩ := (recvIPPacket_other hp (fits_of_recvIPPacket hm)).mp hm
      refine ⟨{ v with queue := v.queue ++ [p] }, view_eq_some.mpr ⟨hs, ?_, hl⟩, .other hp ?_,
        fun _ => rfl⟩
      · rw [queue_snoc, if_pos rfl, hq]
      · rcases hchoice with ⟨s, hs', haddr, -⟩ | ⟨h100, -⟩
        · rw [hs, Option.some.injEq] at hs'
          exact Or.inl (hs' ▸ haddr)
        · exact Or.inr h100
  · refine ⟨v, view_eq_some.mpr ⟨?_, ?_, hl⟩, .elsewhere, fun hne => absurd rfl hne⟩
    · by_cases hp : p.isSynOnly
      · obtain ⟨-, -, rfl⟩ := (recvIPPacket_syn hp (fits_of_recvIPPacket hm)).mp hm
        rw [OrdMap.find?_modify_of_ne _ _ (Ne.symm hfd), hs]
      · obtain ⟨rfl, -⟩ := (recvIPPacket_other hp (fits_of_recvIPPacket hm)).mp hm
        exact hs
    · rw [queue_snoc, if_neg hfd, hq]

/-- What processing a packet can do to a socket. -/
inductive ProcessView (fd : ℤ) (v : View) : View → Prop
  | elsewhere : ProcessView fd v v
  | same (p rest t out) : v.queue = p :: rest → SameState v.sock t →
      ProcessView fd v ⟨t, rest, v.handled ++ [⟨fd, p, v.sock.tcb.status, v.sock.tcb.status, out⟩]⟩
  | syn (p rest tmp) : v.queue = p :: rest → p.isSynOnly → v.sock.tcb.status = .listen →
      ProcessView fd v ⟨{ v.sock.setStatus .synrcvd with accSynReady := true }, rest,
        v.handled ++ [⟨fd, p, .listen, .synrcvd, [MySocket.reply p tmp (setAck (setSyn 0))]⟩]⟩
  | ack (p rest) : v.queue = p :: rest → isAck p.flag → ¬p.isSynOnly →
      v.sock.tcb.status = .synrcvd →
      ProcessView fd v ⟨{ v.sock.setStatus .estab with accAckReady := true }, rest,
        v.handled ++ [⟨fd, p, .synrcvd, .estab, []⟩]⟩
  | move (p rest t out) : v.queue = p :: rest → OtherMove v.sock t →
      ProcessView fd v ⟨t, rest,
        v.handled ++ [⟨fd, p, v.sock.tcb.status, t.tcb.status, out⟩]⟩

/-- No socket is in an active open as a server: `connect` makes a socket a client. -/
def NoServerSynsent (k : Kernel) : Prop :=
  ∀ fd s, k.sockets.find? fd = some s → ¬(s.tcb.status = .synsent ∧ s.tcb.role = .server)

lemma process_view (hn : k.NoServerSynsent) (h : k.process tmp = some k')
    (hv : k.view fd = some v) : ∃ v', k'.view fd = some v' ∧ ProcessView fd v v' := by
  obtain ⟨fd', p, rest, s, t, out, hpend, hs', ht, rfl⟩ := process_eq_some.mp h
  obtain ⟨hs, hq, hl⟩ := view_eq_some.mp hv
  by_cases hfd : fd' = fd
  · subst hfd
    rw [hs, Option.some.injEq] at hs'
    subst hs'
    have hqueue : v.queue = p :: (rest.filter (fun a => a.1 = fd')).map Prod.snd := by
      rw [hq, queue, hpend]
      simp
    refine ⟨⟨t, (rest.filter (fun a => a.1 = fd')).map Prod.snd,
      v.handled ++ [⟨fd', p, v.sock.tcb.status, t.tcb.status, out⟩]⟩, ?_, ?_⟩
    · refine view_eq_some.mpr ⟨?_, rfl, ?_⟩
      · rw [OrdMap.find?_modify_self, hs, Option.map_some]
      · simp [hl]
    · rcases readIPPacket_cases (hn fd' _ hs) ht with
        hsame | ⟨hp, hst, rfl, rfl⟩ | ⟨hack, hp, hst, rfl, rfl⟩ | hmove
      · rw [hsame.tcb]
        exact .same p _ t out hqueue hsame
      · rw [hst]
        exact .syn p _ tmp hqueue hp hst
      · rw [hst]
        exact .ack p _ hqueue hack hp hst
      · exact .move p _ t out hqueue hmove
  · refine ⟨v, view_eq_some.mpr ⟨?_, ?_, ?_⟩, .elsewhere⟩
    · rw [OrdMap.find?_modify_of_ne _ _ (Ne.symm hfd), hs]
    · rw [hq, queue, queue, hpend]
      simp [hfd]
    · rw [hl]
      simp [hfd]

/-- Receiving and processing create no sockets. -/
lemma recv_view_before (h : k.recv p = some k') (hv : k'.view fd = some v') :
    ∃ v, k.view fd = some v ∧ RecvView p fd v v' ∧
      (v' ≠ v → (recvIPPacket k.sockets p).map Prod.fst = some fd) := by
  obtain ⟨s, hs⟩ : ∃ s, k.sockets.find? fd = some s := by
    obtain ⟨hs, -⟩ := view_eq_some.mp hv
    obtain ⟨fd', m, hm, rfl⟩ := recv_eq_some.mp h
    by_cases hp : p.isSynOnly
    · obtain ⟨-, -, rfl⟩ := (recvIPPacket_syn hp (fits_of_recvIPPacket hm)).mp hm
      exact OrdMap.exists_of_find?_modify hs
    · obtain ⟨rfl, -⟩ := (recvIPPacket_other hp (fits_of_recvIPPacket hm)).mp hm
      exact ⟨_, hs⟩
  have hv₀ : k.view fd = some ⟨s, _, _⟩ := view_eq_some.mpr ⟨hs, rfl, rfl⟩
  obtain ⟨v₁, hv₁, hstep, hne⟩ := recv_view h hv₀
  obtain rfl : v₁ = v' := Option.some.inj (hv₁.symm.trans hv)
  exact ⟨_, hv₀, hstep, hne⟩

lemma process_view_before (hn : k.NoServerSynsent) (h : k.process tmp = some k')
    (hv : k'.view fd = some v') : ∃ v, k.view fd = some v ∧ ProcessView fd v v' := by
  obtain ⟨s, hs⟩ : ∃ s, k.sockets.find? fd = some s := by
    obtain ⟨hs, -⟩ := view_eq_some.mp hv
    obtain ⟨fd', p, rest, s', t, out, -, -, -, rfl⟩ := process_eq_some.mp h
    exact OrdMap.exists_of_find?_modify hs
  have hv₀ : k.view fd = some ⟨s, _, _⟩ := view_eq_some.mpr ⟨hs, rfl, rfl⟩
  obtain ⟨v₁, hv₁, hstep⟩ := process_view hn h hv₀
  obtain rfl : v₁ = v' := Option.some.inj (hv₁.symm.trans hv)
  exact ⟨_, hv₀, hstep⟩

lemma view_of_find? {s : MySocket} (h : k.sockets.find? fd = some s) :
    ∃ v, k.view fd = some v ∧ v.sock = s :=
  ⟨⟨s, _, _⟩, view_eq_some.mpr ⟨h, rfl, rfl⟩, rfl⟩

lemma find?_of_view (h : k.view fd = some v) : k.sockets.find? fd = some v.sock :=
  (view_eq_some.mp h).1

/-! ### One socket -/

/-- The packet moved the socket out of LISTEN. -/
def opens (h : Handled) : Bool := h.before == .listen && h.after != .listen

/-- The socket stores the tuple of the client whose SYN `h` moved it out of LISTEN, and the reply
with SYN and ACK went to that client. -/
structure OpenedBy (s : MySocket) (h : Handled) : Prop where
  syn : h.packet.isSynOnly
  address : s.address = h.packet.info.mirror
  reply : ∃ q ∈ h.out, isSyn q.flag ∧ isAck q.flag ∧ q.info = h.packet.info.mirror

/-- While the socket listens, the SYNs queued on it are those of the client whose tuple it stores;
afterwards it stores the tuple of the client that was answered. -/
structure Coherent (v : View) : Prop where
  waiting : v.sock.tcb.status = .listen → v.handled.filter opens = [] ∧
    ∀ q ∈ v.queue, q.isSynOnly → q.info.mirror = v.sock.address
  opened : v.sock.tcb.status ≠ .listen → ∃ h, v.handled.filter opens = [h] ∧ OpenedBy v.sock h

/-- A SYN has been queued on the socket. -/
def Engaged (v : View) : Prop := v.sock.tcb.status ≠ .listen ∨ ∃ q ∈ v.queue, q.isSynOnly

lemma listensFor_status {s : MySocket} (h : s.listensFor p) : s.tcb.status = .listen := by
  simp only [MySocket.listensFor, Bool.and_eq_true, beq_iff_eq] at h
  exact h.1.1

lemma coherent_recv (h : Coherent v)
    (hsyn : v' ≠ v → p.isSynOnly → ∀ q ∈ v.queue, q.isSynOnly → q.info = p.info)
    (hv : RecvView p fd v v') : Coherent v' := by
  cases hv with
  | elsewhere => exact h
  | syn hp hlisten =>
    have hst := listensFor_status hlisten
    refine ⟨fun _ => ⟨(h.waiting hst).1, ?_⟩, fun hne => absurd hst hne⟩
    have hall := hsyn (View.ne_of_queue (by simp)) hp
    refine List.forall_mem_append.mpr ⟨fun q hq hq' => ?_, ?_⟩
    · rw [hall q hq hq']
      rfl
    · exact List.forall_mem_singleton.mpr fun _ => rfl
  | other hp haddr =>
    refine ⟨fun hst => ⟨(h.waiting hst).1, ?_⟩, h.opened⟩
    exact List.forall_mem_append.mpr ⟨(h.waiting hst).2,
      List.forall_mem_singleton.mpr fun hq => absurd hq hp⟩

lemma filter_opens_snoc {l : List Handled} {h : Handled} (hh : opens h = false) :
    (l ++ [h]).filter opens = l.filter opens := by
  simp [hh]

lemma otherMoves_ne {a b : Status} (h : (a, b) ∈ otherMoves) :
    a ≠ .listen ∧ b ≠ .listen ∧ b ≠ .synsent := by
  simp only [otherMoves, List.mem_cons, Prod.mk.injEq, List.not_mem_nil, or_false] at h
  rcases h with h | h | h | h | h | h | h | h <;> simp [h]

lemma coherent_process (h : Coherent v) (hv : ProcessView fd v v') : Coherent v' := by
  cases hv with
  | elsewhere => exact h
  | same p rest t out hq hs =>
    have hopens : opens ⟨fd, p, v.sock.tcb.status, v.sock.tcb.status, out⟩ = false := by
      simp [opens]
    constructor
    · intro hst
      rw [hs.tcb] at hst
      obtain ⟨hnil, hall⟩ := h.waiting hst
      rw [hq] at hall
      refine ⟨by rw [filter_opens_snoc hopens, hnil], fun q hmem hsyn => ?_⟩
      rw [hs.address]
      exact hall q (List.mem_cons_of_mem _ hmem) hsyn
    · intro hst
      rw [hs.tcb] at hst
      obtain ⟨o, ho, hby⟩ := h.opened hst
      exact ⟨o, by rw [filter_opens_snoc hopens, ho], hby.syn, hs.address.trans hby.address, hby.reply⟩
  | syn p rest tmp hq hp hst =>
    obtain ⟨hnil, hall⟩ := h.waiting hst
    have haddr := hall p (by rw [hq]; exact List.mem_cons_self) hp
    refine ⟨fun hl => by simp at hl, fun _ => ?_⟩
    refine ⟨⟨fd, p, .listen, .synrcvd, [MySocket.reply p tmp (setAck (setSyn 0))]⟩, ?_, hp,
      haddr.symm, ?_⟩
    · rw [List.filter_append, hnil]
      rfl
    · have hsyn : isSyn (setAck (setSyn 0)) = true := by decide
      have hack : isAck (setAck (setSyn 0)) = true := by decide
      exact ⟨_, List.mem_singleton_self _, hsyn, hack, rfl⟩
  | ack p rest hq hack hp hst =>
    obtain ⟨o, ho, hby⟩ := h.opened (by rw [hst]; decide)
    refine ⟨fun hl => by simp at hl, fun _ => ?_⟩
    exact ⟨o, by rw [filter_opens_snoc rfl, ho], hby.syn, hby.address, hby.reply⟩
  | move p rest t out hq hm =>
    obtain ⟨hne, hne', -⟩ := otherMoves_ne hm.moves
    obtain ⟨o, ho, hby⟩ := h.opened hne
    refine ⟨fun hl => absurd hl hne', fun _ => ?_⟩
    have hopens : opens ⟨fd, p, v.sock.tcb.status, t.tcb.status, out⟩ = false := by
      simp [opens, hne]
    exact ⟨o, by rw [filter_opens_snoc hopens, ho], hby.syn, hm.address.trans hby.address, hby.reply⟩

/-! ### A listening socket and its clients -/

/-- The events of the two threads. -/
def IsPacketEvent : KernelEvent → Prop
  | .recv _ | .process _ => True
  | _ => False

/-- No socket with a smaller descriptor takes the packets of the client. -/
def First (k : Kernel) (fd : ℤ) (v : View) : Prop :=
  Engaged v → ∀ fd' s, fd' < fd → k.sockets.find? fd' = some s →
    s.address ≠ v.sock.address ∧ ¬(s.tcb.status = .listen ∧
      s.address.srcIP = v.sock.address.srcIP ∧ s.address.srcPort = v.sock.address.srcPort)

/-- A packet fits into the buffers, and a SYN finds a listening socket. If that is `fd`, no SYN of
another client is queued there, and no socket with a smaller descriptor stores the tuple of the
client. -/
def Alone (fd : ℤ) (k : Kernel) : KernelEvent → Prop
  | .recv p => p.Fits ∧ (p.isSynOnly → ∃ a ∈ k.sockets.search (fun _ s => s.listensFor p), a.1 = fd →
      (∀ q ∈ k.queue fd, q.isSynOnly → q.info = p.info) ∧
      ∀ b ∈ k.sockets.entries, b.1 < fd → b.2.address ≠ p.info.mirror)
  | .process _ => ∀ a ∈ k.pending.head?, ∀ s ∈ k.sockets.find? a.1, s.Transfers a.2 → s.CopyFits a.2
  | _ => True

instance (fd : ℤ) (k : Kernel) (e : KernelEvent) : Decidable (Alone fd k e) :=
  match e with
  | .recv p => inferInstanceAs (Decidable (p.Fits ∧ (p.isSynOnly →
      ∃ a ∈ k.sockets.search (fun _ s => s.listensFor p), _ → _ ∧ _)))
  | .process _ => inferInstanceAs (Decidable (∀ a ∈ k.pending.head?,
      ∀ s ∈ k.sockets.find? a.1, s.Transfers a.2 → s.CopyFits a.2))
  | .socket _ _ | .bind _ _ | .listen _ _ | .accept _ | .acceptReturn _ =>
    inferInstanceAs (Decidable True)

/-- What the condition says of the SYN that `recvIPPacket` queues on the socket. -/
lemma Alone.syn (h : Alone fd k (.recv p)) (hp : p.isSynOnly)
    (hchosen : (recvIPPacket k.sockets p).map Prod.fst = some fd) :
    (∀ q ∈ k.queue fd, q.isSynOnly → q.info = p.info) ∧
      ∀ b ∈ k.sockets.entries, b.1 < fd → b.2.address ≠ p.info.mirror := by
  obtain ⟨⟨fd', m⟩, hm, hfd⟩ := Option.map_eq_some_iff.mp hchosen
  obtain ⟨s, hsearch, -⟩ := search_of_recvIPPacket hp hm
  obtain ⟨a, ha, hall⟩ := h.2 hp
  obtain rfl := Option.some.inj (hsearch.symm.trans ha)
  exact hall hfd

/-- The socket at `fd` waits for clients. -/
structure Waiting (k : Kernel) (fd : ℤ) : Prop where
  listening : ∃ s, k.sockets.find? fd = some s ∧ s.tcb.status = .listen
  pending : k.pending = []
  log : k.log = []
  clients : k.NoServerSynsent

structure Serving (fd : ℤ) (k : Kernel) : Prop where
  clients : k.NoServerSynsent
  socket : ∃ v, k.view fd = some v ∧ Coherent v ∧ k.First fd v

lemma Waiting.serving (h : k.Waiting fd) : Serving fd k := by
  obtain ⟨s, hs, hst⟩ := h.listening
  refine ⟨h.clients, ⟨s, [], []⟩, view_eq_some.mpr ⟨hs, ?_, ?_⟩, ⟨fun _ => ?_, ?_⟩, ?_⟩
  · simp [queue, h.pending]
  · simp [h.log]
  · simp
  · exact fun hne => absurd hst hne
  · rintro (hne | ⟨q, hq, -⟩)
    · exact absurd hst hne
    · cases hq

/-- Receiving a packet changes nothing of a socket but its queue and, for a SYN on a listening
socket, its address. -/
lemma RecvView.sock_eq (h : RecvView p fd v v') : v'.sock.tcb = v.sock.tcb := by
  cases h <;> rfl

lemma ProcessView.address_eq (h : ProcessView fd v v') : v'.sock.address = v.sock.address := by
  cases h with
  | elsewhere => rfl
  | same p rest t out hq hs => exact hs.address
  | syn p rest tmp hq hp hst => rfl
  | ack p rest hq hack hp hst => rfl
  | move p rest t out hq hm => exact hm.address

/-- Processing a packet opens no new passive or active open. -/
lemma ProcessView.status_cases (h : ProcessView fd v v') :
    v'.sock.tcb = v.sock.tcb ∨ v'.sock.tcb.status ≠ .listen ∧ v'.sock.tcb.status ≠ .synsent := by
  cases h with
  | elsewhere => exact Or.inl rfl
  | same p rest t out hq hs => exact Or.inl hs.tcb
  | syn p rest tmp hq hp hst => exact Or.inr (by simp)
  | ack p rest hq hack hp hst => exact Or.inr (by simp)
  | move p rest t out hq hm => exact Or.inr (otherMoves_ne hm.moves).2

lemma noServerSynsent_recv (hn : k.NoServerSynsent) (h : k.recv p = some k') :
    k'.NoServerSynsent := by
  intro fd s hs
  obtain ⟨v', hv', rfl⟩ := view_of_find? hs
  obtain ⟨v, hv, hstep, -⟩ := recv_view_before h hv'
  rw [hstep.sock_eq]
  exact hn fd v.sock (find?_of_view hv)

lemma noServerSynsent_process (hn : k.NoServerSynsent) (h : k.process tmp = some k') :
    k'.NoServerSynsent := by
  intro fd s hs
  obtain ⟨v', hv', rfl⟩ := view_of_find? hs
  obtain ⟨v, hv, hstep⟩ := process_view_before hn h hv'
  rcases hstep.status_cases with heq | ⟨-, hne⟩
  · rw [heq]
    exact hn fd v.sock (find?_of_view hv)
  · exact fun hst => hne hst.1

lemma Engaged.of_process (h : ProcessView fd v v') (he : Engaged v') : Engaged v := by
  cases h with
  | elsewhere => exact he
  | same p rest t out hq hs =>
    rcases he with hne | ⟨q, hmem, hsyn⟩
    · exact Or.inl (by rwa [hs.tcb] at hne)
    · exact Or.inr ⟨q, by rw [hq]; exact List.mem_cons_of_mem _ hmem, hsyn⟩
  | syn p rest tmp hq hp hst => exact Or.inr ⟨p, by rw [hq]; exact List.mem_cons_self, hp⟩
  | ack p rest hq hack hp hst => exact Or.inl (by rw [hst]; decide)
  | move p rest t out hq hm => exact Or.inl (otherMoves_ne hm.moves).1

lemma first_process (hn : k.NoServerSynsent) (h : k.process tmp = some k')
    (hstep : ProcessView fd v v') (hf : k.First fd v) : k'.First fd v' := by
  intro he fd' s hlt hs
  obtain ⟨w', hw', rfl⟩ := view_of_find? hs
  obtain ⟨w, hw, hstep'⟩ := process_view_before hn h hw'
  obtain ⟨haddr, hlisten⟩ := hf (he.of_process hstep) fd' w.sock hlt (find?_of_view hw)
  rw [hstep'.address_eq, hstep.address_eq]
  refine ⟨haddr, fun hl => ?_⟩
  rcases hstep'.status_cases with heq | ⟨hne, -⟩
  · rw [heq] at hl
    exact hlisten hl
  · exact hne hl.1

lemma listensFor_iff {s : MySocket} : s.listensFor p ↔ s.tcb.status = .listen ∧
    s.address.srcIP = p.info.mirror.srcIP ∧ s.address.srcPort = p.info.mirror.srcPort := by
  simp [MySocket.listensFor, Tuple4.mirror, and_assoc]

/-- A step that leaves the tuple of `fd` alone, and on another socket can only overwrite the
address of a listening socket by a tuple with the same source. -/
lemma first_recv_of_address {w w' : View} {fd' : ℤ} (hstep : RecvView p fd' w w')
    (haddr : w.sock.address ≠ v.sock.address)
    (hlisten : ¬(w.sock.tcb.status = .listen ∧ w.sock.address.srcIP = v.sock.address.srcIP ∧
      w.sock.address.srcPort = v.sock.address.srcPort)) :
    w'.sock.address ≠ v.sock.address ∧ ¬(w'.sock.tcb.status = .listen ∧
      w'.sock.address.srcIP = v.sock.address.srcIP ∧
      w'.sock.address.srcPort = v.sock.address.srcPort) := by
  cases hstep with
  | elsewhere => exact ⟨haddr, hlisten⟩
  | other hp _ => exact ⟨haddr, hlisten⟩
  | syn hp hl =>
    obtain ⟨hst, hip, hport⟩ := listensFor_iff.mp hl
    simp only [MySocket.setAddress_address, MySocket.setAddress_tcb]
    rw [hip, hport] at hlisten
    exact ⟨fun heq => hlisten ⟨hst, by rw [heq], by rw [heq]⟩, hlisten⟩

lemma first_recv (h : k.recv p = some k') (hstep : RecvView p fd v v')
    (hsyn : v' ≠ v → p.isSynOnly → (recvIPPacket k.sockets p).map Prod.fst = some fd ∧
      ∀ a ∈ k.sockets.entries, a.1 < fd → a.2.address ≠ p.info.mirror)
    (hf : k.First fd v) : k'.First fd v' := by
  intro he fd' s hlt hs
  obtain ⟨w', hw', rfl⟩ := view_of_find? hs
  obtain ⟨w, hw, hstep', hne'⟩ := recv_view_before h hw'
  have hfind := find?_of_view hw
  cases hstep with
  | elsewhere =>
    obtain ⟨haddr, hlisten⟩ := hf he fd' w.sock hlt hfind
    exact first_recv_of_address hstep' haddr hlisten
  | other hp _ =>
    have he' : Engaged v := by
      refine he.imp id fun ⟨q, hmem, hq⟩ => ⟨q, ?_, hq⟩
      rcases List.mem_append.mp hmem with hmem | hmem
      · exact hmem
      · exact absurd (List.mem_singleton.mp hmem ▸ hq) hp
    obtain ⟨haddr, hlisten⟩ := hf he' fd' w.sock hlt hfind
    exact first_recv_of_address hstep' haddr hlisten
  | syn hp hl =>
    obtain ⟨hchosen, hall⟩ := hsyn (View.ne_of_queue (by simp)) hp
    -- the SYN was queued on `fd`, so the other socket is as before
    have hw_eq : w' = w := by
      by_contra hne
      rw [hne' hne, Option.some.injEq] at hchosen
      omega
    subst hw_eq
    refine ⟨hall (fd', w'.sock) (OrdMap.find?_eq_some.mp hfind) hlt, fun hl' => ?_⟩
    obtain ⟨⟨fd₀, m⟩, hm, hfd₀⟩ := Option.map_eq_some_iff.mp hchosen
    obtain rfl : fd₀ = fd := hfd₀
    obtain ⟨-, hmin, -⟩ := (recvIPPacket_syn hp (fits_of_recvIPPacket hm)).mp hm
    exact hmin fd' w'.sock hlt hfind (listensFor_iff.mpr hl')

theorem serving_step (e : KernelEvent) (he : IsPacketEvent e) (hc : Alone fd k e)
    (h : Serving fd k) (hs : k.step e = some k') : Serving fd k' := by
  obtain ⟨hn, v, hv, hco, hf⟩ := h
  cases e with
  | recv p =>
    obtain ⟨v', hv', hstep, hne⟩ := recv_view hs hv
    obtain ⟨-, hq, -⟩ := view_eq_some.mp hv
    have hcond : v' ≠ v → p.isSynOnly → _ := fun hvv hp => hc.syn hp (hne hvv)
    refine ⟨noServerSynsent_recv hn hs, v', hv', ?_, ?_⟩
    · refine coherent_recv hco (fun hvv hp => ?_) hstep
      rw [hq]
      exact (hcond hvv hp).1
    · exact first_recv hs hstep (fun hvv hp => ⟨hne hvv, (hcond hvv hp).2⟩) hf
  | process tmp =>
    obtain ⟨v', hv', hstep⟩ := process_view hn hs hv
    exact ⟨noServerSynsent_process hn hs, v', hv', coherent_process hco hstep,
      first_process hn hs hstep hf⟩
  | socket _ _ | bind _ _ | listen _ _ | accept _ | acceptReturn _ => exact he.elim

/-- The other packets of a client whose SYN has been queued are queued on the same socket. -/
lemma First.recvIPPacket_eq (hf : k.First fd v) (hv : k.view fd = some v) (he : Engaged v)
    (hp : ¬p.isSynOnly) (hfits : p.Fits) (hinfo : p.info.mirror = v.sock.address) :
    recvIPPacket k.sockets p = some (fd, k.sockets) := by
  refine (recvIPPacket_other hp hfits).mpr ⟨rfl, Or.inl ⟨v.sock, find?_of_view hv, hinfo.symm, ?_⟩⟩
  intro fd' s hlt hs
  rw [hinfo]
  exact (hf he fd' s hlt hs).1

/-- Several clients and one listening socket, with packets received and processed in any order.
If a SYN finds a listening socket and is only ever queued on this one while no SYN of another client
is, then whenever the socket is in SYNRCVD or ESTAB it stores the tuple of the client whose SYN moved
it out of LISTEN and that got the SYN+ACK, and the other packets of this client, as long as they fit
into the buffer, are queued on it. -/
theorem handshake_agreement {es : List KernelEvent} (hk : k.Waiting fd)
    (hes : ∀ e ∈ es, IsPacketEvent e) (h : run (restrict (Alone fd) step) k es = some k') :
    ∃ v, k'.view fd = some v ∧
      (v.sock.tcb.status = .synrcvd ∨ v.sock.tcb.status = .estab →
        ∃ h, v.handled.filter opens = [h] ∧ OpenedBy v.sock h ∧
          ∀ p : Segment, ¬p.isSynOnly → p.Fits → p.info = h.packet.info →
            recvIPPacket k'.sockets p = some (fd, k'.sockets)) := by
  have hserving := run_invariant_of IsPacketEvent (fun s e t he hi hs => by
    obtain ⟨hc, hs⟩ := restrict_eq_some.mp hs
    exact serving_step e he hc hi hs) hes hk.serving h
  obtain ⟨-, v, hv, hco, hf⟩ := hserving
  refine ⟨v, hv, fun hst => ?_⟩
  have hne : v.sock.tcb.status ≠ .listen := by
    rcases hst with hst | hst <;> rw [hst] <;> decide
  obtain ⟨h, hopens, hby⟩ := hco.opened hne
  refine ⟨h, hopens, hby, fun p hp hfits hinfo => ?_⟩
  refine hf.recvIPPacket_eq hv (Or.inl hne) hp hfits ?_
  rw [hinfo, hby.address]

/-- A server with one socket, bound to address 2 and port 4, that waits in `accept`. -/
def accepting : Kernel :=
  (run step init [.socket ⟨0, 0, 0, 0⟩ false, .bind 100 ⟨2, 0, 4, 0⟩, .accept 100]).getD init

lemma accepting_waiting : accepting.Waiting 101 where
  listening := ⟨_, (Option.some_get (by decide +kernel)).symm, by decide +kernel⟩
  pending := by decide +kernel
  log := by decide +kernel
  clients := by
    intro fd s hs
    have hall : ∀ a ∈ accepting.sockets.entries,
        ¬(a.2.tcb.status = .synsent ∧ a.2.tcb.role = .server) := by decide +kernel
    exact hall (fd, s) (OrdMap.find?_eq_some.mp hs)

/-- A SYN from a client to the server, and the ACK that completes its handshake. -/
def synFrom (client : UInt32) : Segment := ⟨⟨client, 2, 3, 4⟩, 0, 0, setSyn 0, [0]⟩
def ackFrom (client : UInt32) : Segment := ⟨⟨client, 2, 3, 4⟩, 0, 1, setAck 0, [0]⟩

/-- A client's handshake, received and processed packet by packet. -/
def oneClient : List KernelEvent :=
  [.recv (synFrom 1), .process 0, .recv (ackFrom 1), .process 0]

theorem handshake_agreement_oneClient :
    ∃ k, run (restrict (Alone 101) step) accepting oneClient = some k ∧
      ∃ v, k.view 101 = some v ∧ v.sock.tcb.status = .estab ∧
        ∃ h, v.handled.filter opens = [h] ∧ OpenedBy v.sock h := by
  have hrun : run (restrict (Alone 101) step) accepting oneClient = some _ :=
    (Option.some_get (by decide +kernel)).symm
  obtain ⟨v, hv, hall⟩ := handshake_agreement accepting_waiting
    (by simp [oneClient, IsPacketEvent]) hrun
  have hst : v.sock.tcb.status = .estab := by
    have hst : (((run (restrict (Alone 101) step) accepting oneClient).get
        (by decide +kernel)).view 101).map (fun v => v.sock.tcb.status) = some .estab := by
      decide +kernel
    rw [hv] at hst
    exact Option.some.inj hst
  obtain ⟨h, hopens, hby, -⟩ := hall (Or.inr hst)
  exact ⟨_, hrun, v, hv, hst, h, hopens, hby⟩

/-- The address is overwritten when a SYN is received, the status only when it is processed: the
SYN of the second client is received before that of the first is processed. -/
theorem handshake_agreement_fails :
    accepting.Waiting 101 ∧ ∃ k, run step accepting
        [.recv (synFrom 1), .recv (synFrom 5), .process 0] = some k ∧
      ∃ s, k.sockets.find? 101 = some s ∧ s.tcb.status = .synrcvd ∧
        ∃ h ∈ k.log, opens h ∧ h.packet = synFrom 1 ∧ s.address ≠ h.packet.info.mirror :=
  ⟨accepting_waiting, _, (Option.some_get (by decide +kernel)).symm, _,
    (Option.some_get (by decide +kernel)).symm, by decide +kernel, by decide +kernel⟩

end Kernel

end ITCP
