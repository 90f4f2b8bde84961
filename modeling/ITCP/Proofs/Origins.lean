import ITCP.Proofs.Synchronised

/-!
# Where the bytes of a read come from

As long as data is processed on synchronised connections only, and comes from their peers, a read
returns bytes of the peer. It may also return bytes that have been written on the socket itself,
because both directions share one buffer, and zeros for bytes that have not arrived.
-/

namespace ITCP
open Lib

namespace MySocket

variable {s t : MySocket} {p : Segment} {tmp : UInt8} {out : List Segment}

/-- An ACK leaves the buffer alone, and a data segment leaves its bytes there. -/
lemma recvTCPPacket_databuf (h : s.Clean) (ht : s.recvTCPPacket p tmp = some (t, out)) :
    isAck p.flag ∧ t.databuf = s.databuf ∧ t.sizep = s.sizep ∨
      ¬isAck p.flag ∧ t.databuf = writeAt s.databuf p.seq.toNat p.payload ∧ s.sizep ≤ t.sizep ∧
        p.payload.length ≤ t.sizep := by
  unfold MySocket.recvTCPPacket at ht
  split_ifs at ht with hack
  · obtain ⟨-, rfl, -⟩ | ⟨-, rfl, -⟩ := recvAck_eq_some ht
    · exact Or.inl ⟨hack, rfl, rfl⟩
    · exact Or.inl ⟨hack, rfl, rfl⟩
  · have hfits := recvData_isSome.mp (Option.isSome_iff_exists.mpr ⟨_, ht⟩)
    rw [recvData_spec tmp hfits h.sized.nonneg h.sized.fits] at ht
    cases ht
    refine Or.inr ⟨hack, rfl, le_max_left _ _, le_max_of_le_right ?_⟩
    simp only [pieceEnd, Segment.piece]
    omega

end MySocket

namespace Streams

variable {v w : Streams} {e : StreamsEvent} {es : List StreamsEvent} {fd : ℤ} {s t : MySocket}

/-- The packets that have been processed. -/
def log (v : Streams) : List Handled := v.host.threads.kernel.log

/-- Where a byte in the buffer of a socket comes from: a data segment that its peer sent and that was
processed on a synchronised connection, or a write on the socket, or nothing has been put there. -/
inductive Origin (es : List StreamsEvent) (v : Streams) (fd : ℤ) (s : MySocket) (b : UInt8) : Prop
  | segment (h : Handled) : h ∈ v.log → h.fd = fd → h.packet.isPlain → h.before.synchronised →
      h.packet.info = s.address.mirror → b ∈ h.packet.payload → Origin es v fd s b
  | write (buf : List UInt8) : .write fd buf ∈ es → b ∈ buf → Origin es v fd s b
  | gap : b = 0 → Origin es v fd s b

/-- What becomes of a socket in a step: once there is data in its buffer it keeps its tuple, and the
bytes that are new have an origin. -/
structure Continues (es : List StreamsEvent) (w : Streams) (fd : ℤ) (s t : MySocket) : Prop where
  used : s.sizep ≠ 0 → t.sizep ≠ 0 ∧ t.address = s.address
  databuf : ∀ i, t.databuf i = s.databuf i ∨ Origin es w fd t (t.databuf i)

namespace Continues

lemma of_same (hst : SameStream s t) (haddress : s.sizep ≠ 0 → t.address = s.address) :
    Continues es w fd s t :=
  ⟨fun hne => ⟨hst.sizep ▸ hne, haddress hne⟩, fun i => Or.inl (by rw [hst.databuf])⟩

lemma refl (s : MySocket) : Continues es w fd s s := of_same (.refl s) fun _ => rfl

end Continues

lemma log_next (hw : v.next e = some w) : w.log = v.log ∧ v.processing e = none ∨ ∃ tmp fd p s t out,
    e = .host (.threads (.processorStep tmp)) ∧ v.host.nextPacket = some (fd, p) ∧
      v.sockets.find? fd = some s ∧ s.readIPPacket p tmp = some (t, out) ∧
      w.sockets = v.sockets.modify fd (fun _ => t) ∧
      w.log = v.log ++ [⟨fd, p, s.tcb.status, t.tcb.status, out⟩] := by
  obtain ⟨out, hw⟩ := next_eq_some.mp hw
  cases e with
  | host e =>
    obtain ⟨⟨host, out'⟩, hhost, hw⟩ := Option.bind_eq_some_iff.mp hw
    cases hw
    cases e with
    | threads e =>
      obtain ⟨threads, hthreads, hhost⟩ := Option.bind_eq_some_iff.mp hhost
      cases hhost
      rcases Host.log_threads hthreads with ⟨hlog, hnone⟩ | ⟨tmp, fd, p, s, t, out, rfl, hstep⟩
      · refine Or.inl ⟨hlog, ?_⟩
        cases e with
        | call | receive | receiverStep => rfl
        | processorStep tmp => rw [processing, hnone tmp rfl, Option.bind_eq_bind, Option.bind_none]
      · exact Or.inr ⟨tmp, fd, p, s, t, out, rfl, hstep⟩
    | connect fd address tmp =>
      obtain ⟨_, -, hhost⟩ := Option.bind_eq_some_iff.mp hhost
      cases hhost
      exact Or.inl ⟨rfl, rfl⟩
    | close fildes tmp =>
      obtain ⟨_, -, hhost⟩ := Option.bind_eq_some_iff.mp hhost
      split_ifs at hhost <;> cases hhost <;> exact Or.inl ⟨rfl, rfl⟩
    | closeStatus i =>
      obtain ⟨_, -, hhost⟩ := Option.bind_eq_some_iff.mp hhost
      split_ifs at hhost
      cases hhost
      exact Or.inl ⟨rfl, rfl⟩
    | closeReturn i =>
      obtain ⟨_, -, hhost⟩ := Option.bind_eq_some_iff.mp hhost
      obtain ⟨_, -, hhost⟩ := Option.bind_eq_some_iff.mp hhost
      split_ifs at hhost
      cases hhost
      exact Or.inl ⟨rfl, rfl⟩
  | read fildes nbyte =>
    obtain ⟨_, -, hw⟩ := Option.bind_eq_some_iff.mp hw
    cases hw
    exact Or.inl ⟨rfl, rfl⟩
  | readReturn i =>
    obtain ⟨_, -, hw⟩ := Option.bind_eq_some_iff.mp hw
    obtain ⟨_, -, hw⟩ := Option.bind_eq_some_iff.mp hw
    split_ifs at hw
    obtain ⟨_, -, hw⟩ := Option.bind_eq_some_iff.mp hw
    cases hw
    exact Or.inl ⟨rfl, rfl⟩
  | write fildes buf =>
    obtain ⟨_, -, hw⟩ := Option.bind_eq_some_iff.mp hw
    obtain ⟨_, -, hw⟩ := Option.bind_eq_some_iff.mp hw
    cases hw
    exact Or.inl ⟨rfl, rfl⟩
  | writeSend i =>
    obtain ⟨_, -, hw⟩ := Option.bind_eq_some_iff.mp hw
    obtain ⟨_, -, hw⟩ := Option.bind_eq_some_iff.mp hw
    obtain ⟨_, -, hw⟩ := Option.bind_eq_some_iff.mp hw
    cases hw
    exact Or.inl ⟨rfl, rfl⟩

/-- The calls that write a status leave the stream and the tuple alone. -/
lemma exists_of_setStatus {m : SocketSet} {k : ℤ} {x : Status}
    (h : (m.modify k (·.setStatus x)).find? fd = some t) :
    ∃ s, m.find? fd = some s ∧ SameStream s t ∧ t.address = s.address := by
  rcases OrdMap.find?_modify_cases h with ⟨-, hs⟩ | ⟨rfl, s, hs, rfl⟩
  · exact ⟨t, hs, .refl t, rfl⟩
  · exact ⟨s, hs, s.sameStream_setStatus x, rfl⟩

/-- A socket after a step: one that was there before, or a new one with an empty buffer. -/
def Follows (es : List StreamsEvent) (v w : Streams) (fd : ℤ) (t : MySocket) : Prop :=
  (∃ s, v.sockets.find? fd = some s ∧ Continues es w fd s t) ∨
    v.sockets.find? fd = none ∧ ∀ i, t.databuf i = 0

lemma follows_modify {k : ℤ} {f : MySocket → MySocket}
    (hf : ∀ s, v.sockets.find? k = some s → Continues es w k s (f s))
    (ht : (v.sockets.modify k f).find? fd = some t) : Follows es v w fd t := by
  rcases OrdMap.find?_modify_cases ht with ⟨-, hs⟩ | ⟨rfl, s, hs, rfl⟩
  · exact Or.inl ⟨t, hs, .refl t⟩
  · exact Or.inl ⟨s, hs, hf s hs⟩

lemma follows_setStatus {k : ℤ} {x : Status}
    (ht : (v.sockets.modify k (·.setStatus x)).find? fd = some t) : Follows es v w fd t :=
  follows_modify (fun s _ => .of_same (s.sameStream_setStatus x) fun _ => rfl) ht

/-- The new socket of `accept` has the buffer of the listening one, which has not been used. -/
lemma follows_accept {k k' : ℤ} {s : MySocket} (hs : s.Untouched)
    (ht : (((v.sockets.insert k s).modify k' (·.setStatus .closed)).modify k
      (·.setStatus .listen)).find? fd = some t) : Follows es v w fd t := by
  obtain ⟨t', ht', hsame, haddress⟩ := exists_of_setStatus ht
  obtain ⟨t'', ht'', hsame', haddress'⟩ := exists_of_setStatus ht'
  have hstream := hsame'.trans hsame
  rcases OrdMap.find?_insert_cases ht'' with hold | ⟨hnew, rfl, rfl⟩
  · exact Or.inl ⟨t'', hold, .of_same hstream fun _ => haddress.trans haddress'⟩
  · exact Or.inr ⟨hnew, fun i => by rw [hstream.databuf]; exact hs.databuf i⟩

/-- The bytes of a data segment have it as their origin. -/
lemma continues_process {tmp : UInt8} {p : Segment} {out : List Segment} (h : v.Orderly)
    (hc : v.orderly (.host (.threads (.processorStep tmp)))) (hp : v.host.nextPacket = some (fd, p))
    (hs : v.sockets.find? fd = some s) (ht : s.readIPPacket p tmp = some (t, out))
    (hlog : ⟨fd, p, s.tcb.status, t.tcb.status, out⟩ ∈ w.log) : Continues es w fd s t := by
  have hclean := h.clean fd s hs
  have haddress : s.sizep ≠ 0 → t.address = s.address := by
    intro hne
    refine (MySocket.readIPPacket_live (fun hst => hne ?_) ht).1
    exact (h.opening fd s hs (by rw [hst.1]; rfl)).sizep
  rcases MySocket.readIPPacket_stream ht with ⟨htransfers, hrecv⟩ | ⟨-, hstream⟩
  · have hlocated := s.sameStream_located p
    rcases MySocket.recvTCPPacket_databuf (hclean.of_same hlocated) hrecv with
      ⟨-, hdatabuf, hsizep⟩ | ⟨hack, hdatabuf, hle, -⟩
    · exact ⟨fun hne => ⟨by rwa [hsizep, hlocated.sizep], haddress hne⟩,
        fun i => Or.inl (by rw [hdatabuf, hlocated.databuf])⟩
    · have hplain : p.isPlain := MySocket.isPlain_iff.mpr ⟨htransfers.1, htransfers.2.1, hack⟩
      obtain ⟨hsync, hpeer⟩ := (peer_of_orderly hc hp hs).resolve_left (not_not_intro hplain)
      have hnonneg := hclean.sized.nonneg
      rw [hlocated.sizep] at hle
      refine ⟨fun hne => ⟨by omega, haddress hne⟩, fun i => ?_⟩
      rw [hdatabuf, hlocated.databuf]
      refine (writeAt_cases s.databuf p.seq.toNat p.payload i).imp_right fun hmem => ?_
      refine .segment _ hlog rfl hplain hsync ?_ hmem
      -- a synchronised connection keeps its tuple
      have hlive := (MySocket.readIPPacket_live (fun hst => ?_) ht).1
      · rw [hlive, hpeer]
      · rw [hst.1] at hsync
        cases hsync
  · exact .of_same hstream haddress

lemma continues_unused (hs : s.Unused) (hst : SameStream s t) : Continues es w fd s t :=
  .of_same hst fun hne => absurd hs.sizep hne

/-- Every socket after a step follows one before it, or is new. -/
lemma follows_next (h : v.Orderly) (hc : v.orderly e) (he : e ∈ es) (hw : v.next e = some w)
    (ht : w.sockets.find? fd = some t) : Follows es v w fd t := by
  have hstep := tableStep_next hw
  generalize hm : w.sockets = m at hstep ht
  cases hstep with
  | host e m hstep =>
    cases hstep with
    | same => exact Or.inl ⟨t, ht, .refl t⟩
    | socket address b =>
      rcases OrdMap.find?_insert_cases ht with hs | ⟨hnew, rfl, rfl⟩
      · exact Or.inl ⟨t, hs, .refl t⟩
      · exact Or.inr ⟨hnew, fun _ => rfl⟩
    | bind k address =>
      refine follows_modify (fun s hs => ?_) ht
      simp only [orderly] at hc
      rw [hs, Option.all_some, Bool.or_eq_true, bne_iff_ne, decide_eq_true_eq] at hc
      rcases hc with hrole | hunused
      · rw [MySocket.bind, if_pos hrole]
        exact .refl s
      · exact continues_unused hunused (s.sameStream_bind address)
    | listen k => exact follows_setStatus ht
    | accept k s hs =>
      obtain ⟨hunused, -⟩ := Bool.and_eq_true_iff.mp hc
      exact follows_accept ((h.clean k s hs).untouched (unused_of_unusedAt hunused hs)) ht
    | acceptReturn i call => exact follows_setStatus ht
    | syn p k s hp hsearch =>
      refine follows_modify (fun s' hs' => ?_) ht
      obtain ⟨hs, hlistens, -⟩ := OrdMap.search_eq_some.mp hsearch
      obtain rfl := Option.some.inj (hs.symm.trans hs')
      have hopening : s.tcb.status.opening := by rw [MySocket.status_of_listensFor hlistens]; rfl
      exact continues_unused (h.opening k s hs hopening) ⟨rfl, rfl, rfl, rfl⟩
    | process tmp k p s t' out hp hs hread =>
      refine follows_modify (fun s' hs' => ?_) ht
      obtain rfl := Option.some.inj (hs.symm.trans hs')
      refine continues_process h hc hp hs hread ?_
      have hprocessing := processing_eq_some tmp hp hs
      rcases log_next hw with ⟨-, hnone⟩ | ⟨_, _, _, _, _, _, he, hp', hs'', hread', -, hlog⟩
      · rw [hprocessing] at hnone
        cases hnone
      · cases he
        cases hp.symm.trans hp'
        cases hs.symm.trans hs''
        cases hread.symm.trans hread'
        rw [hlog]
        exact List.mem_append_right _ (List.mem_singleton_self _)
    | connect k address tmp s hs =>
      refine follows_modify (fun s' hs' => ?_) ht
      obtain rfl := Option.some.inj (hs.symm.trans hs')
      exact continues_unused (unused_of_unusedAt hc hs) ⟨rfl, rfl, rfl, rfl⟩
    | closeStatus i call => exact follows_setStatus ht
  | read => exact Or.inl ⟨t, ht, .refl t⟩
  | readReturn i r s buf t' hr hs hready hread =>
    refine follows_modify (fun s' hs' => ?_) ht
    obtain rfl := Option.some.inj (hs.symm.trans hs')
    obtain ⟨-, -, -, -, rfl⟩ := myread_eq_some.mp hread
    exact ⟨fun hne => ⟨hne, rfl⟩, fun _ => Or.inl rfl⟩
  | write fildes buf s t' hs hwrite =>
    refine follows_modify (fun s' hs' => ?_) ht
    obtain rfl := Option.some.inj (hs.symm.trans hs')
    obtain ⟨h0, -, rfl⟩ := mywrite_eq_some.mp hwrite
    refine ⟨fun hne => ⟨by dsimp only; omega, rfl⟩, fun i => ?_⟩
    exact (writeAt_cases s.databuf s.sizep.toNat buf i).imp_right fun hmem => .write buf he hmem
  | writeSend i fildes s t' out hfildes hs hsend =>
    refine follows_modify (fun s' hs' => ?_) ht
    obtain rfl := Option.some.inj (hs.symm.trans hs')
    obtain rfl := MySocket.wrapWriteSend_eq_some hsend
    exact ⟨fun hne => ⟨hne, rfl⟩, fun _ => Or.inl rfl⟩

/-- No step removes a socket. -/
lemma isSome_next (hw : v.next e = some w) (hfd : (v.sockets.find? fd).isSome) :
    (w.sockets.find? fd).isSome := by
  have hstep := tableStep_next hw
  generalize w.sockets = m at hstep ⊢
  cases hstep with
  | host e m hstep =>
    cases hstep with
    | same => exact hfd
    | socket => rw [OrdMap.isSome_find?_insert, Bool.or_eq_true]; exact Or.inr hfd
    | accept =>
      rw [OrdMap.isSome_find?_modify, OrdMap.isSome_find?_modify, OrdMap.isSome_find?_insert,
        Bool.or_eq_true]
      exact Or.inr hfd
    | bind | listen | acceptReturn | syn | process | connect | closeStatus =>
      rw [OrdMap.isSome_find?_modify]
      exact hfd
  | read => exact hfd
  | readReturn | write | writeSend =>
    rw [OrdMap.isSome_find?_modify]
    exact hfd

/-- Bytes are returned by a read that returns, and they are those in the buffer. -/
lemma returned_next (hw : v.next e = some w) {a : ℤ × List UInt8} (ha : a ∈ w.returned) :
    a ∈ v.returned ∨ ∃ s, v.sockets.find? a.1 = some s ∧ ∀ b ∈ a.2, ∃ i, b = s.databuf i := by
  obtain ⟨out, hw⟩ := next_eq_some.mp hw
  cases e with
  | host e =>
    obtain ⟨_, -, hw⟩ := Option.bind_eq_some_iff.mp hw
    cases hw
    exact Or.inl ha
  | read fildes nbyte =>
    obtain ⟨_, -, hw⟩ := Option.bind_eq_some_iff.mp hw
    cases hw
    exact Or.inl ha
  | readReturn i =>
    obtain ⟨r, -, hw⟩ := Option.bind_eq_some_iff.mp hw
    obtain ⟨s, hs, hw⟩ := Option.bind_eq_some_iff.mp hw
    split_ifs at hw
    obtain ⟨⟨buf, t⟩, hread, hw⟩ := Option.bind_eq_some_iff.mp hw
    cases hw
    refine (List.mem_append.mp ha).imp_right fun ha => ?_
    obtain rfl := List.mem_singleton.mp ha
    obtain ⟨-, -, -, rfl, -⟩ := myread_eq_some.mp hread
    refine ⟨s, hs, fun b hb => ?_⟩
    obtain ⟨i, -, rfl⟩ := List.mem_map.mp hb
    exact ⟨_, rfl⟩
  | write fildes buf =>
    obtain ⟨_, -, hw⟩ := Option.bind_eq_some_iff.mp hw
    obtain ⟨_, -, hw⟩ := Option.bind_eq_some_iff.mp hw
    cases hw
    exact Or.inl ha
  | writeSend i =>
    obtain ⟨_, -, hw⟩ := Option.bind_eq_some_iff.mp hw
    obtain ⟨_, -, hw⟩ := Option.bind_eq_some_iff.mp hw
    obtain ⟨_, -, hw⟩ := Option.bind_eq_some_iff.mp hw
    cases hw
    exact Or.inl ha

/-! ### Runs -/

/-- Every byte in a buffer and every byte that a read has returned has an origin, and a socket on which
data has been processed has been used. -/
structure Traced (es : List StreamsEvent) (v : Streams) : Prop where
  orderly : v.Orderly
  data : ∀ h ∈ v.log, h.packet.isPlain → h.packet.payload ≠ [] →
    ∃ s, v.sockets.find? h.fd = some s ∧ s.sizep ≠ 0
  buffer : ∀ fd s, v.sockets.find? fd = some s → ∀ i, Origin es v fd s (s.databuf i)
  returned : ∀ a ∈ v.returned, ∃ s, v.sockets.find? a.1 = some s ∧ ∀ b ∈ a.2, Origin es v a.1 s b

lemma traced_init : Traced es init where
  orderly := ⟨fun _ _ hs => (by cases hs), fun _ hr => absurd hr List.not_mem_nil,
    fun _ _ hs => (by cases hs)⟩
  data _ h := absurd h List.not_mem_nil
  buffer _ _ hs := by cases hs
  returned _ ha := absurd ha List.not_mem_nil

lemma log_subset (hw : v.next e = some w) {h : Handled} (hh : h ∈ v.log) : h ∈ w.log := by
  rcases log_next hw with ⟨hlog, -⟩ | ⟨_, _, _, _, _, _, -, -, -, -, -, hlog⟩
  · rwa [hlog]
  · rw [hlog]
    exact List.mem_append_left _ hh

namespace Traced

/-- What follows a socket that is there before the step. -/
lemma exists_continues (h : Traced es v) (hc : v.orderly e) (he : e ∈ es) (hw : v.next e = some w)
    (hs : v.sockets.find? fd = some s) :
    ∃ t, w.sockets.find? fd = some t ∧ Continues es w fd s t := by
  have hsome : (v.sockets.find? fd).isSome := Option.isSome_iff_exists.mpr ⟨s, hs⟩
  obtain ⟨t, ht⟩ := Option.isSome_iff_exists.mp (isSome_next hw hsome)
  rcases follows_next h.orderly hc he hw ht with ⟨s', hs', hcontinues⟩ | ⟨hnone, -⟩
  · obtain rfl := Option.some.inj (hs.symm.trans hs')
    exact ⟨t, ht, hcontinues⟩
  · cases hs.symm.trans hnone

lemma origin_next {b : UInt8} (h : Traced es v) (hw : v.next e = some w)
    (hs : v.sockets.find? fd = some s) (hcontinues : Continues es w fd s t)
    (hb : Origin es v fd s b) : Origin es w fd t b := by
  cases hb with
  | segment hd hmem hfd hplain hsync hpeer hb =>
    obtain ⟨s', hs', hne⟩ := h.data hd hmem hplain (List.ne_nil_of_mem hb)
    rw [hfd] at hs'
    obtain rfl := Option.some.inj (hs.symm.trans hs')
    refine .segment hd (log_subset hw hmem) hfd hplain hsync ?_ hb
    rw [(hcontinues.used hne).2, hpeer]
  | write buf he hb => exact .write buf he hb
  | gap hb => exact .gap hb

lemma next (h : Traced es v) (hc : v.orderly e) (he : e ∈ es) (hw : v.next e = some w) :
    Traced es w where
  orderly := orderly_next h.orderly hc hw
  data := by
    intro hd hmem hplain hne
    have hold : hd ∈ v.log → ∃ s, w.sockets.find? hd.fd = some s ∧ s.sizep ≠ 0 := by
      intro hmem
      obtain ⟨s, hs, hsizep⟩ := h.data hd hmem hplain hne
      obtain ⟨t, ht, hcontinues⟩ := h.exists_continues hc he hw hs
      exact ⟨t, ht, (hcontinues.used hsizep).1⟩
    rcases log_next hw with ⟨hlog, -⟩ | ⟨tmp, fd, p, s, t, out, rfl, hp, hs, hread, hsockets, hlog⟩
    · exact hold (hlog ▸ hmem)
    rw [hlog] at hmem
    rcases List.mem_append.mp hmem with hmem | hmem
    · exact hold hmem
    obtain rfl := List.mem_singleton.mp hmem
    refine ⟨t, by rw [hsockets, OrdMap.find?_modify_self, hs, Option.map_some], ?_⟩
    obtain ⟨hsyn, hfin, hack⟩ := MySocket.isPlain_iff.mp hplain
    have hlen := List.length_pos_of_ne_nil hne
    rcases MySocket.readIPPacket_stream hread with ⟨-, hrecv⟩ | ⟨hnot, -⟩
    · have hclean := (h.orderly.clean fd s hs).of_same (s.sameStream_located p)
      rcases MySocket.recvTCPPacket_databuf hclean hrecv with ⟨hack', -⟩ | ⟨-, -, -, hle⟩
      · exact absurd hack' hack
      · dsimp only at hlen ⊢
        omega
    · exact absurd ⟨hsyn, hfin, fun h => absurd h hack⟩ hnot
  buffer := by
    intro fd t ht i
    rcases follows_next h.orderly hc he hw ht with ⟨s, hs, hcontinues⟩ | ⟨-, hzero⟩
    · rcases hcontinues.databuf i with hsame | horigin
      · rw [hsame]
        exact h.origin_next hw hs hcontinues (h.buffer fd s hs i)
      · exact horigin
    · exact .gap (hzero i)
  returned := by
    intro a ha
    have hnext : ∀ s, v.sockets.find? a.1 = some s → (∀ b ∈ a.2, Origin es v a.1 s b) →
        ∃ t, w.sockets.find? a.1 = some t ∧ ∀ b ∈ a.2, Origin es w a.1 t b := by
      intro s hs hall
      obtain ⟨t, ht, hcontinues⟩ := h.exists_continues hc he hw hs
      exact ⟨t, ht, fun b hb => h.origin_next hw hs hcontinues (hall b hb)⟩
    rcases returned_next hw ha with ha | ⟨s, hs, hall⟩
    · obtain ⟨s, hs, hall⟩ := h.returned a ha
      exact hnext s hs hall
    · refine hnext s hs fun b hb => ?_
      obtain ⟨i, rfl⟩ := hall b hb
      exact h.buffer a.1 s hs i

end Traced

/-- A packet leaves a socket guarded exactly when its connection is synchronised or the packet is no
data. In every run in which data meets synchronised connections only and comes from their peers, and
the calls that open a connection meet sockets that have not been used, a handshake completes on an
untouched stream, and every byte that a read returns has an origin. -/
theorem data_synchronised
    (h : run (restrict (fun v e => v.orderly e = true) next) init es = some v) :
    (∀ fd s, v.sockets.find? fd = some s →
      (∀ p tmp, p.Fits → (s.Guarded p tmp ↔ s.tcb.status.synchronised ∨ ¬p.isPlain)) ∧
      (s.tcb.status.opening → s.Untouched ∧ ∀ p tmp t out, ¬p.isPlain →
        s.readIPPacket p tmp = some (t, out) → t.Untouched)) ∧
    ∀ a ∈ v.returned, ∃ s, v.sockets.find? a.1 = some s ∧ ∀ b ∈ a.2, Origin es v a.1 s b := by
  have hinv : Traced es v := by
    refine run_invariant_of (I := Traced es) (· ∈ es) ?_ (fun e he => he) traced_init h
    intro v e w he hv hw
    obtain ⟨hc, hw⟩ := restrict_eq_some.mp hw
    exact hv.next hc he hw
  refine ⟨fun fd s hs => ⟨fun p tmp hfits => MySocket.guarded_packet_iff hfits,
    fun hopening => ?_⟩, hinv.returned⟩
  have huntouched := (hinv.orderly.clean fd s hs).untouched (hinv.orderly.opening fd s hs hopening)
  refine ⟨huntouched, fun p tmp t out hp ht => ?_⟩
  have hs' := Status.not_synchronised hopening
  rcases MySocket.readIPPacket_stream ht with ⟨htransfers, -⟩ | ⟨-, hstream⟩
  · exact absurd ((MySocket.transfers_iff hs').mp htransfers) hp
  · refine ⟨huntouched.toUnused.of_same hstream, fun i => ?_⟩
    rw [hstream.databuf]
    exact huntouched.databuf i

/-- A client that has sent its SYN. -/
def connecting : List StreamsEvent :=
  [.host Host.socketCall, .host (.connect 100 ⟨1, 2, 3, 4⟩ 0)]

/-- Its handshake is completed, and it reads the two bytes of a data segment. -/
def connectedRead : List StreamsEvent :=
  connecting ++ (Host.arrival ⟨⟨2, 1, 4, 3⟩, 0, 1, setAck (setSyn 0), [0]⟩).map .host ++
    (Host.arrival ⟨⟨2, 1, 4, 3⟩, 0, 0, 0, [6, 7]⟩).map .host ++ [.read 100 2, .readReturn 0]

theorem data_synchronised_connectedRead : ∃ v s, run next init connectedRead = some v ∧
    v.returned = [(100, [6, 7])] ∧ v.sockets.find? 100 = some s ∧
    (∀ b ∈ [6, 7], Origin connectedRead v 100 s b) ∧
    s.Guarded ⟨⟨2, 1, 4, 3⟩, 2, 1, 0, [8]⟩ 0 := by
  have hreturned : (run (restrict (fun v e => v.orderly e = true) next) init connectedRead).map
      Streams.returned = some [(100, [6, 7])] := by decide +kernel
  have hstatus : (run (restrict (fun v e => v.orderly e = true) next) init connectedRead).map
      (fun v => (v.sockets.find? 100).map (fun s => s.tcb.status)) = some (some .estab) := by
    decide +kernel
  obtain ⟨v, s, hv, hs, hstatus⟩ := exists_socket hstatus
  rw [hv, Option.map_some, Option.some.injEq] at hreturned
  obtain ⟨hguarded, horigin⟩ := data_synchronised hv
  obtain ⟨s', hs', hall⟩ := horigin (100, [6, 7]) (by rw [hreturned]; exact List.mem_singleton_self _)
  obtain rfl := Option.some.inj (hs.symm.trans hs')
  exact ⟨v, s, run_of_restrict hv, hreturned, hs, hall,
    ((hguarded 100 s hs).1 _ 0 (by decide)).mpr (Or.inl (by rw [hstatus]; rfl))⟩

/-- Two bytes that come before the handshake of a client is complete are answered, and a read that
is made afterwards returns them. -/
theorem data_not_synchronised :
    (∃ v s, run next init connecting = some v ∧ v.sockets.find? 100 = some s ∧
      s.tcb.status = .synsent ∧ ¬s.Guarded ⟨⟨2, 1, 4, 3⟩, 0, 0, 0, [6, 6]⟩ 0) ∧
    (run next init (connecting ++ (Host.arrival ⟨⟨2, 1, 4, 3⟩, 0, 0, 0, [6, 6]⟩).map .host ++
      (Host.arrival ⟨⟨2, 1, 4, 3⟩, 0, 1, setAck (setSyn 0), [0]⟩).map .host ++
      [.read 100 2, .readReturn 0])).map Streams.returned = some [(100, [6, 6])] := by
  have hstatus : (run next init connecting).map
      (fun v => (v.sockets.find? 100).map (fun s => s.tcb.status)) = some (some .synsent) := by
    decide +kernel
  refine ⟨?_, by decide +kernel⟩
  obtain ⟨v, s, hv, hs, hstatus⟩ := exists_socket hstatus
  refine ⟨v, s, hv, hs, hstatus, fun h => ?_⟩
  rcases (MySocket.guarded_packet_iff (by decide)).mp h with hsync | hplain
  · rw [hstatus] at hsync
    cases hsync
  · exact hplain (by decide)

end Streams

end ITCP
