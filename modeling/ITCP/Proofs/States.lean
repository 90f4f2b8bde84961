import ITCP.Model.Kernel

/-!
# State changes by packets

What `readIPPacket` can do to the address, the status and the flags of a socket, and what
`recvIPPacket` can do to the socket table.
-/

namespace ITCP
open Lib

variable {s t : MySocket} {p : Segment} {tmp : UInt8} {out : List Segment}

structure SameState (s t : MySocket) : Prop where
  address : t.address = s.address
  role : t.role = s.role
  tcb : t.tcb = s.tcb
  connReady : t.connReady = s.connReady
  accSynReady : t.accSynReady = s.accSynReady
  accAckReady : t.accAckReady = s.accAckReady

lemma SameState.refl (s : MySocket) : SameState s s := ⟨rfl, rfl, rfl, rfl, rfl, rfl⟩

/-- The two sockets have the same buffer and the same offsets. -/
structure SameStream (s t : MySocket) : Prop where
  databuf : t.databuf = s.databuf
  readp : t.readp = s.readp
  writep : t.writep = s.writep
  sizep : t.sizep = s.sizep

lemma SameStream.refl (s : MySocket) : SameStream s s := ⟨rfl, rfl, rfl, rfl⟩

lemma SameStream.trans {s t u : MySocket} (h : SameStream s t) (h' : SameStream t u) :
    SameStream s u :=
  ⟨h'.databuf.trans h.databuf, h'.readp.trans h.readp, h'.writep.trans h.writep,
    h'.sizep.trans h.sizep⟩

lemma recvData_eq_some (h : s.recvData p tmp = some (t, out)) :
    ∃ databuf, s.copyIn p.seq.toNat p.payload = some databuf ∧
      t = { s with
        databuf := databuf
        sizep := if p.seq + UInt32.ofNat p.payload.length > u32 s.sizep then
          i32 (p.seq + UInt32.ofNat p.payload.length) else s.sizep } ∧
      out = [sendTCPPacket [tmp] p.info.mirror p.ack
        (p.seq + UInt32.ofNat p.payload.length) (setAck 0)] := by
  unfold MySocket.recvData at h
  obtain ⟨databuf, hcopy, h⟩ := Option.bind_eq_some_iff.mp h
  obtain ⟨rfl, rfl⟩ := Prod.mk.inj (Option.some.inj h)
  exact ⟨databuf, hcopy, rfl, rfl⟩

lemma recvAck_eq_some (h : s.recvAck p = some (t, out)) :
    s.role = .server ∧ t = s ∧ out = [] ∨
    s.role ≠ .server ∧ t = { s with writep := i32 p.ack } ∧
      (u32 s.sizep ≤ p.ack ∧ out = [] ∨
        p.ack < u32 s.sizep ∧ ∃ buf, out = [sendTCPPacket buf p.info.mirror p.ack
          (p.seq + UInt32.ofNat p.payload.length) 0]) := by
  unfold MySocket.recvAck at h
  dsimp only at h
  by_cases hrole : s.role = .server
  · rw [if_pos hrole] at h
    obtain ⟨rfl, rfl⟩ := Prod.mk.inj (Option.some.inj h)
    exact Or.inl ⟨hrole, rfl, rfl⟩
  rw [if_neg hrole] at h
  by_cases hack : p.ack ≥ u32 s.sizep
  · rw [if_pos hack] at h
    obtain ⟨rfl, rfl⟩ := Prod.mk.inj (Option.some.inj h)
    exact Or.inr ⟨hrole, rfl, Or.inl ⟨hack, rfl⟩⟩
  rw [if_neg hack] at h
  obtain ⟨buf, -, h⟩ := Option.bind_eq_some_iff.mp h
  obtain ⟨rfl, rfl⟩ := Prod.mk.inj (Option.some.inj h)
  exact Or.inr ⟨hrole, rfl, Or.inr ⟨UInt32.not_le.mp hack, buf, rfl⟩⟩

lemma recvData_sameState (h : s.recvData p tmp = some (t, out)) : SameState s t := by
  obtain ⟨databuf, -, rfl, -⟩ := recvData_eq_some h
  exact ⟨rfl, rfl, rfl, rfl, rfl, rfl⟩

lemma recvAck_sameState (h : s.recvAck p = some (t, out)) : SameState s t := by
  obtain ⟨-, rfl, -⟩ | ⟨-, rfl, -⟩ := recvAck_eq_some h
  · exact .refl t
  · exact ⟨rfl, rfl, rfl, rfl, rfl, rfl⟩

lemma recvTCPPacket_sameState (h : s.recvTCPPacket p tmp = some (t, out)) : SameState s t := by
  unfold MySocket.recvTCPPacket at h
  split_ifs at h
  · exact recvAck_sameState h
  · exact recvData_sameState h

/-! ### The branches -/

namespace MySocket

/-- The socket as a packet finds it: a server in SYNSENT has taken its address from the packet. -/
def located (s : MySocket) (p : Segment) : MySocket :=
  if s.tcb.status = .synsent ∧ s.tcb.role = .server then { s with address := p.info.mirror } else s

lemma located_eq (hs : ¬(s.tcb.status = .synsent ∧ s.tcb.role = .server)) (p : Segment) :
    s.located p = s := if_neg hs

@[simp] lemma located_tcb (s : MySocket) (p : Segment) : (s.located p).tcb = s.tcb := by
  unfold located
  split_ifs <;> rfl

@[simp] lemma located_role (s : MySocket) (p : Segment) : (s.located p).role = s.role := by
  unfold located
  split_ifs <;> rfl

@[simp] lemma located_sizep (s : MySocket) (p : Segment) : (s.located p).sizep = s.sizep := by
  unfold located
  split_ifs <;> rfl

lemma sameStream_located (s : MySocket) (p : Segment) : SameStream s (s.located p) := by
  unfold located
  split_ifs
  · exact ⟨rfl, rfl, rfl, rfl⟩
  · exact .refl s

/-- The changes of status by a FIN, with the flags of the packets that answer it. -/
def finMoves : List (Status × Status × List UInt16) :=
  [(.estab, .lastack, [setAck 0, setFin 0]), (.finwait1, .closing, [setAck 0]),
    (.finwait2, .timewait, [setAck 0])]

/-- The changes of status by an ACK during a close. -/
def ackMoves : List (Status × Status) :=
  [(.finwait1, .finwait2), (.closing, .timewait), (.lastack, .closed)]

lemma mem_finMoves {a x : Status} {flags : List UInt16} : (a, x, flags) ∈ finMoves ↔
    a = .estab ∧ x = .lastack ∧ flags = [setAck 0, setFin 0] ∨
    a = .finwait1 ∧ x = .closing ∧ flags = [setAck 0] ∨
    a = .finwait2 ∧ x = .timewait ∧ flags = [setAck 0] := by
  simp [finMoves]

lemma mem_ackMoves {a x : Status} : (a, x) ∈ ackMoves ↔ a = .finwait1 ∧ x = .finwait2 ∨
    a = .closing ∧ x = .timewait ∨ a = .lastack ∧ x = .closed := by
  simp [ackMoves]

/-- The packet has no effect. -/
def Ignores (s : MySocket) (p : Segment) : Prop :=
  if isSyn p.flag then s.tcb.status ≠ .synsent ∧ (isAck p.flag ∨ s.tcb.status ≠ .listen)
  else if isFin p.flag then s.tcb.status ∉ [.estab, .finwait1, .finwait2]
  else isAck p.flag ∧ s.tcb.status ∉ [.synrcvd, .finwait1, .closing, .lastack, .estab]

/-- What `readIPPacket` does to a socket, by the flags of the packet and the status. -/
inductive Reads (s : MySocket) (p : Segment) (tmp : UInt8) : MySocket → List Segment → Prop
  | synAck (hsyn : isSyn p.flag) (hack : isAck p.flag) (hst : s.tcb.status = .synsent) :
      Reads s p tmp { s.setStatus .estab with connReady := true } [reply p tmp (setAck 0)]
  | syn (hsyn : p.isSynOnly) (hst : s.tcb.status = .listen) :
      Reads s p tmp { s.setStatus .synrcvd with accSynReady := true }
        [reply p tmp (setAck (setSyn 0))]
  | crossing (hsyn : p.isSynOnly) (hst : s.tcb.status = .synsent) :
      Reads s p tmp (s.setStatus .synrcvd) [reply p tmp (setAck 0)]
  | fin (hsyn : ¬isSyn p.flag) (hfin : isFin p.flag) (x : Status) (flags : List UInt16)
      (hmove : (s.tcb.status, x, flags) ∈ finMoves) :
      Reads s p tmp (s.setStatus x) (flags.map (reply p tmp))
  | accAck (hsyn : ¬isSyn p.flag) (hfin : ¬isFin p.flag) (hack : isAck p.flag)
      (hst : s.tcb.status = .synrcvd) :
      Reads s p tmp { s.setStatus .estab with accAckReady := true } []
  | ack (hsyn : ¬isSyn p.flag) (hfin : ¬isFin p.flag) (hack : isAck p.flag) (x : Status)
      (hmove : (s.tcb.status, x) ∈ ackMoves) : Reads s p tmp (s.setStatus x) []
  | data (hsyn : ¬isSyn p.flag) (hfin : ¬isFin p.flag)
      (hack : isAck p.flag → s.tcb.status = .estab) (t : MySocket) (out : List Segment)
      (h : s.recvTCPPacket p tmp = some (t, out)) : Reads s p tmp t out
  | ignored (h : s.Ignores p) : Reads s p tmp s []

lemma fits_of_readIPPacket (h : s.readIPPacket p tmp = some (t, out)) : p.Fits := by
  by_contra hp
  rw [readIPPacket, if_pos hp] at h
  cases h

theorem readIPPacket_reads (h : s.readIPPacket p tmp = some (t, out)) :
    Reads (s.located p) p tmp t out := by
  have hfits := fits_of_readIPPacket h
  rw [readIPPacket, if_neg (not_not_intro hfits)] at h
  generalize hr : s.located p = r
  unfold located at hr
  dsimp only at h
  rw [hr] at h
  by_cases hsyn : isSyn p.flag
  · by_cases hack : isAck p.flag
    · simp only [hsyn, hack, Bool.and_self, if_true] at h
      split_ifs at h with hst
      · cases h
        exact .synAck hsyn hack hst
      · cases h
        exact .ignored (by simp [Ignores, hsyn, hack, hst])
    have hp : p.isSynOnly := by simp [Segment.isSynOnly, hsyn, hack]
    simp only [hsyn, hack, Bool.and_false, Bool.false_eq_true, if_false, Bool.not_false,
      Bool.and_self, if_true] at h
    split_ifs at h with hlisten hsynsent
    · cases h
      exact .syn hp hlisten
    · cases h
      exact .crossing hp hsynsent
    · cases h
      exact .ignored (by simp [Ignores, hsyn, hlisten, hsynsent])
  simp only [hsyn, Bool.false_and, Bool.false_eq_true, if_false] at h
  by_cases hfin : isFin p.flag
  · rw [if_pos hfin] at h
    split_ifs at h with hestab hfinwait1 hfinwait2
    · cases h
      exact .fin hsyn hfin .lastack [setAck 0, setFin 0] (by simp [finMoves, hestab])
    · cases h
      exact .fin hsyn hfin .closing [setAck 0] (by simp [finMoves, hfinwait1])
    · cases h
      exact .fin hsyn hfin .timewait [setAck 0] (by simp [finMoves, hfinwait2])
    · cases h
      exact .ignored (by simp [Ignores, hsyn, hfin, hestab, hfinwait1, hfinwait2])
  rw [if_neg hfin] at h
  by_cases hack : isAck p.flag
  · rw [if_pos hack] at h
    split_ifs at h with hsynrcvd hfinwait1 hclosing hlastack hestab
    · cases h
      exact .accAck hsyn hfin hack hsynrcvd
    · cases h
      exact .ack hsyn hfin hack .finwait2 (by simp [ackMoves, hfinwait1])
    · cases h
      exact .ack hsyn hfin hack .timewait (by simp [ackMoves, hclosing])
    · cases h
      exact .ack hsyn hfin hack .closed (by simp [ackMoves, hlastack])
    · exact .data hsyn hfin (fun _ => hestab) t out h
    · cases h
      exact .ignored
        (by simp [Ignores, hsyn, hfin, hack, hsynrcvd, hfinwait1, hclosing, hlastack, hestab])
  rw [if_neg hack] at h
  exact .data hsyn hfin (fun h' => absurd h' hack) t out h

end MySocket

/-- The changes of status by packets other than those of a passive open. -/
def otherMoves : List (Status × Status) :=
  [(.synsent, .estab), (.synsent, .synrcvd), (.estab, .lastack), (.finwait1, .closing),
    (.finwait2, .timewait), (.finwait1, .finwait2), (.closing, .timewait), (.lastack, .closed)]

structure OtherMove (s t : MySocket) : Prop where
  moves : (s.tcb.status, t.tcb.status) ∈ otherMoves
  address : t.address = s.address
  accSynReady : t.accSynReady = s.accSynReady
  accAckReady : t.accAckReady = s.accAckReady
  tcb_role : t.tcb.role = s.tcb.role

/-- What a packet can do to a socket that is not in an active open as a server: nothing but data
transfer; the first step of a passive open, on a SYN, which is answered by a SYN with an ACK; its
second step, on an ACK; or a change of status that leaves the flags of `accept` alone. -/
theorem readIPPacket_cases (hs : ¬(s.tcb.status = .synsent ∧ s.tcb.role = .server))
    (h : s.readIPPacket p tmp = some (t, out)) :
    SameState s t ∨
    (p.isSynOnly ∧ s.tcb.status = .listen ∧
      t = { s.setStatus .synrcvd with accSynReady := true } ∧
      out = [MySocket.reply p tmp (setAck (setSyn 0))]) ∨
    (isAck p.flag ∧ ¬p.isSynOnly ∧ s.tcb.status = .synrcvd ∧
      t = { s.setStatus .estab with accAckReady := true } ∧ out = []) ∨
    OtherMove s t := by
  have hreads := MySocket.readIPPacket_reads h
  rw [s.located_eq hs] at hreads
  cases hreads with
  | synAck hsyn hack hst =>
    exact Or.inr (Or.inr (Or.inr ⟨by simp [otherMoves, hst], rfl, rfl, rfl, rfl⟩))
  | syn hsyn hst => exact Or.inr (Or.inl ⟨hsyn, hst, rfl, rfl⟩)
  | crossing hsyn hst =>
    exact Or.inr (Or.inr (Or.inr ⟨by simp [otherMoves, hst], rfl, rfl, rfl, rfl⟩))
  | fin hsyn hfin x flags hmove =>
    refine Or.inr (Or.inr (Or.inr ⟨?_, rfl, rfl, rfl, rfl⟩))
    obtain ⟨hst, rfl, -⟩ | ⟨hst, rfl, -⟩ | ⟨hst, rfl, -⟩ := MySocket.mem_finMoves.mp hmove <;>
      simp [otherMoves, hst]
  | accAck hsyn hfin hack hst =>
    exact Or.inr (Or.inr (Or.inl ⟨hack, by simp [Segment.isSynOnly, hsyn], hst, rfl, rfl⟩))
  | ack hsyn hfin hack x hmove =>
    refine Or.inr (Or.inr (Or.inr ⟨?_, rfl, rfl, rfl, rfl⟩))
    obtain ⟨hst, rfl⟩ | ⟨hst, rfl⟩ | ⟨hst, rfl⟩ := MySocket.mem_ackMoves.mp hmove <;>
      simp [otherMoves, hst]
  | data hsyn hfin hack t out h => exact Or.inl (recvTCPPacket_sameState h)
  | ignored => exact Or.inl (.refl s)

/-! ### The descriptor of a new socket -/

/-- All descriptors below the free one are in use, and so is 200 at most when it is given out. -/
lemma freeFd_spec (m : SocketSet) : 100 ≤ freeFd m ∧ freeFd m ≤ 200 ∧
    (∀ fd, 100 ≤ fd → fd < freeFd m → (m.find? fd).isSome) ∧
    (freeFd m ≠ 200 → m.find? (freeFd m) = none) := by
  unfold freeFd
  rw [List.find?_map]
  cases hf : (List.range 100).find? ((fun fd => (m.find? fd).isNone) ∘ fun i : ℕ => (100 + i : ℤ)) with
  | none =>
    rw [Option.map_none, Option.getD_none]
    refine ⟨by decide, le_refl _, fun fd h0 hlt => ?_, fun hne => absurd rfl hne⟩
    obtain ⟨j, rfl⟩ : ∃ j : ℕ, fd = 100 + j := ⟨(fd - 100).toNat, by omega⟩
    simpa using List.find?_range_eq_none.mp hf j (by omega)
  | some i =>
    rw [Option.map_some, Option.getD_some]
    obtain ⟨hnone, hi, hall⟩ := List.find?_range_eq_some.mp hf
    rw [List.mem_range] at hi
    refine ⟨by omega, by omega, fun fd h0 hlt => ?_, fun _ => by simpa using hnone⟩
    obtain ⟨j, rfl⟩ : ∃ j : ℕ, fd = 100 + j := ⟨(fd - 100).toNat, by omega⟩
    simpa using hall j (by omega)

lemma freeFd_find? {m : SocketSet} (h : freeFd m ≠ 200) : m.find? (freeFd m) = none :=
  (freeFd_spec m).2.2.2 h

lemma freeFd_of_none {m : SocketSet} (h : m.find? 100 = none) : freeFd m = 100 := by
  obtain ⟨hle, -, hall, -⟩ := freeFd_spec m
  by_contra hne
  have hsome := hall 100 (le_refl _) (lt_of_le_of_ne hle (Ne.symm hne))
  rw [h] at hsome
  cases hsome

/-! ### The choice of a socket -/

variable {m m' : SocketSet} {fd : ℤ}

lemma MySocket.status_of_listensFor {s : MySocket} (h : s.listensFor p) : s.tcb.status = .listen := by
  simp only [MySocket.listensFor, Bool.and_eq_true, beq_iff_eq] at h
  exact h.1.1

lemma fits_of_recvIPPacket (h : recvIPPacket m p = some (fd, m')) : p.Fits := by
  by_contra hp
  rw [recvIPPacket, if_pos hp] at h
  cases h

/-- The socket of a SYN is the one that the search for a listening socket finds. -/
lemma search_of_recvIPPacket (hp : p.isSynOnly) (h : recvIPPacket m p = some (fd, m')) :
    ∃ s, m.search (fun _ s => s.listensFor p) = some (fd, s) ∧
      m' = m.modify fd (·.setAddress p.info.mirror) := by
  rw [recvIPPacket, if_neg (not_not_intro (fits_of_recvIPPacket h)), if_pos hp] at h
  obtain ⟨⟨fd', s⟩, hsearch, h⟩ := Option.bind_eq_some_iff.mp h
  cases h
  exact ⟨s, hsearch, rfl⟩

/-- A SYN goes to the first listening socket that is bound to its destination, and overwrites the
address of that socket. -/
lemma recvIPPacket_syn (hp : p.isSynOnly) (hfits : p.Fits) :
    recvIPPacket m p = some (fd, m') ↔
      (∃ s, m.find? fd = some s ∧ s.listensFor p) ∧
      (∀ fd' s, fd' < fd → m.find? fd' = some s → ¬s.listensFor p) ∧
      m' = m.modify fd (·.setAddress p.info.mirror) := by
  constructor
  · intro h
    obtain ⟨s, hs, rfl⟩ := search_of_recvIPPacket hp h
    obtain ⟨hfind, hlisten, hmin⟩ := OrdMap.search_eq_some.mp hs
    exact ⟨⟨s, hfind, hlisten⟩, hmin, rfl⟩
  · rintro ⟨⟨s, hfind, hlisten⟩, hmin, rfl⟩
    have hsearch : m.search (fun _ s => s.listensFor p) = some (fd, s) :=
      OrdMap.search_eq_some.mpr ⟨hfind, hlisten, hmin⟩
    rw [recvIPPacket, if_neg (not_not_intro hfits), if_pos hp, hsearch]
    rfl

/-- Any other packet goes to the first socket that stores its tuple, and changes no socket. -/
lemma recvIPPacket_other (hp : ¬p.isSynOnly) (hfits : p.Fits) :
    recvIPPacket m p = some (fd, m') ↔ m' = m ∧
      ((∃ s, m.find? fd = some s ∧ s.address = p.info.mirror ∧
          ∀ fd' s', fd' < fd → m.find? fd' = some s' → s'.address ≠ p.info.mirror) ∨
        fd = 100 ∧ (m.find? 100).isSome ∧ ∀ fd' s', m.find? fd' = some s' →
          s'.address ≠ p.info.mirror) := by
  unfold recvIPPacket
  rw [if_neg (not_not_intro hfits), if_neg hp]
  cases hs : m.search (fun _ s => s.address == p.info.mirror) with
  | none =>
    have hnone := OrdMap.search_eq_none.mp hs
    simp only [beq_iff_eq] at hnone
    simp only [Option.ite_none_right_eq_some, Option.some.injEq, Prod.mk.injEq]
    constructor
    · rintro ⟨hfd, rfl, rfl⟩
      exact ⟨rfl, Or.inr ⟨rfl, hfd, hnone⟩⟩
    · rintro ⟨rfl, ⟨s, hfind, haddr, -⟩ | ⟨rfl, hfd, -⟩⟩
      · exact absurd haddr (hnone fd s hfind)
      · exact ⟨hfd, rfl, rfl⟩
  | some a =>
    obtain ⟨hfind, haddr, hmin⟩ := OrdMap.search_eq_some.mp hs
    simp only [beq_iff_eq] at haddr hmin
    simp only [hfind, Option.isSome_some, if_true, Option.some.injEq, Prod.mk.injEq]
    constructor
    · rintro ⟨rfl, rfl⟩
      exact ⟨rfl, Or.inl ⟨a.2, hfind, haddr, hmin⟩⟩
    · rintro ⟨rfl, ⟨s, hfind', haddr', hmin'⟩ | ⟨-, -, hnone⟩⟩
      · refine ⟨le_antisymm ?_ ?_, rfl⟩
        · exact not_lt.mp fun hlt => hmin fd s hlt hfind' haddr'
        · exact not_lt.mp fun hlt => hmin' a.1 a.2 hlt hfind haddr
      · exact absurd haddr (hnone a.1 a.2 hfind)

/-- The socket chosen for a packet is one of the table. -/
lemma isSome_of_recvIPPacket (h : recvIPPacket m p = some (fd, m')) : (m.find? fd).isSome := by
  by_cases hp : p.isSynOnly
  · obtain ⟨⟨s, hfind, -⟩, -⟩ := (recvIPPacket_syn hp (fits_of_recvIPPacket h)).mp h
    rw [hfind]
    rfl
  · obtain ⟨-, ⟨s, hfind, -⟩ | ⟨rfl, h100, -⟩⟩ :=
      (recvIPPacket_other hp (fits_of_recvIPPacket h)).mp h
    · rw [hfind]
      rfl
    · exact h100

end ITCP
