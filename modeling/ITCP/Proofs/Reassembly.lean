import ITCP.Proofs.Sections
import ITCP.Proofs.States

/-!
# Reassembly

The data branch of `recvTCPPacket` on any number of packets that are cut from one stream, in any
order and with repetitions. What it leaves behind depends on the set of the packets only.
-/

namespace ITCP
open Lib

/-- The packet carries bytes of the stream `X`, at the offset that it says. -/
structure CutFrom (X : List UInt8) (p : Segment) : Prop where
  flag : isAck p.flag = false
  end_le : pieceEnd p.piece ≤ X.length
  payload : p.payload = slice X p.piece.1 p.piece.2

/-- The numbers of the socket are in the range in which the signed and the unsigned comparison
agree. -/
structure MySocket.Sized (s : MySocket) : Prop where
  nonneg : 0 ≤ s.sizep
  fits : s.sizep < 2 ^ 31

/-- The packets `ps` processed one after another, each with the byte that its answer carries. -/
def MySocket.recvAll (s : MySocket) : List (Segment × UInt8) → Option (MySocket × List Segment)
  | [] => some (s, [])
  | (p, tmp) :: ps => do
    let (t, out) ← s.recvTCPPacket p tmp
    let (u, out') ← t.recvAll ps
    some (u, out ++ out')

/-- The acknowledgement of the end of a packet, to where the packet came from. -/
def acknowledge (a : Segment × UInt8) : Segment :=
  sendTCPPacket [a.2] a.1.info.mirror a.1.ack (a.1.seq + UInt32.ofNat a.1.payload.length) (setAck 0)

/-- A buffer with the bytes of the stream wherever one of the pieces covers them. -/
noncomputable def assembled (b : ℕ → UInt8) (X : List UInt8) (ds : List (ℕ × ℕ)) : ℕ → UInt8 :=
  open Classical in fun i => if Covers ds i then X[i]?.getD (b i) else b i

variable {s t : MySocket} {p : Segment} {tmp : UInt8} {X : List UInt8} {b : ℕ → UInt8}

/-! ### Every operation keeps `sizep` in its range -/

lemma sized_create (address : Tuple4) (accAckReady : Bool) :
    (MySocket.create address accAckReady).Sized :=
  ⟨le_rfl, by norm_num [MySocket.create]⟩

lemma MySocket.Sized.mywrite {buf : List UInt8} (h : s.mywrite buf = some t) : t.Sized := by
  obtain ⟨h0, hle, rfl⟩ := mywrite_eq_some.mp h
  have hlt := bufSize_lt
  exact ⟨by dsimp only; omega, by dsimp only; omega⟩

lemma MySocket.Sized.recvData {out : List Segment} (h : s.Sized)
    (ht : s.recvData p tmp = some (t, out)) : t.Sized := by
  obtain ⟨databuf, hcopy, rfl, -⟩ := recvData_eq_some ht
  have hend : pieceEnd p.piece ≤ bufSize := by
    unfold MySocket.copyIn at hcopy
    split_ifs at hcopy with hle
    exact_mod_cast hle.2
  have hlt := bufSize_lt
  have hnew : i32 (p.seq + UInt32.ofNat p.payload.length) = pieceEnd p.piece := by
    rw [i32_eq (by rw [seq_add_toNat hend]; omega), seq_add_toNat hend]
  rw [hnew]
  constructor
  · dsimp only
    split_ifs
    · exact Int.natCast_nonneg _
    · exact h.nonneg
  · dsimp only
    split_ifs
    · omega
    · exact h.fits

lemma MySocket.Sized.recvAck {out : List Segment} (h : s.Sized)
    (ht : s.recvAck p = some (t, out)) : t.Sized := by
  obtain ⟨-, rfl, -⟩ | ⟨-, rfl, -⟩ := recvAck_eq_some ht
  · exact h
  · exact ⟨h.nonneg, h.fits⟩

lemma MySocket.Sized.recvTCPPacket {out : List Segment} (h : s.Sized)
    (ht : s.recvTCPPacket p tmp = some (t, out)) : t.Sized := by
  unfold MySocket.recvTCPPacket at ht
  split_ifs at ht
  · exact h.recvAck ht
  · exact h.recvData ht

/-- Processing a packet keeps `sizep` in its range. -/
theorem MySocket.Sized.readIPPacket {out : List Segment} (h : s.Sized)
    (ht : s.readIPPacket p tmp = some (t, out)) : t.Sized := by
  have hlocated : (s.located p).Sized :=
    ⟨by rw [s.located_sizep]; exact h.nonneg, by rw [s.located_sizep]; exact h.fits⟩
  cases MySocket.readIPPacket_reads ht with
  | data _ _ _ _ _ ht => exact hlocated.recvTCPPacket ht
  | ignored => exact hlocated
  | synAck | syn | crossing | fin | accAck | ack => exact ⟨hlocated.nonneg, hlocated.fits⟩

/-! ### The buffer -/

lemma assembled_of_covers {ds : List (ℕ × ℕ)} {i : ℕ} (h : Covers ds i)
    (hds : ∀ d ∈ ds, pieceEnd d ≤ X.length) : X[i]? = some (assembled b X ds i) := by
  obtain ⟨d, hd, -, hlt⟩ := id h
  have hi : i < X.length := hlt.trans_le (hds d hd)
  rw [assembled, if_pos h, List.getElem?_eq_getElem hi, Option.getD_some]

lemma assembled_of_not_covers {ds : List (ℕ × ℕ)} {i : ℕ} (h : ¬Covers ds i) :
    assembled b X ds i = b i := by
  rw [assembled, if_neg h]

/-- Only the set of the pieces matters. -/
lemma assembled_congr {ds ds' : List (ℕ × ℕ)} (h : ∀ d, d ∈ ds ↔ d ∈ ds') :
    assembled b X ds = assembled b X ds' := by
  have hcovers : ∀ i, Covers ds i ↔ Covers ds' i := by
    intro i
    simp only [Covers, h]
  funext i
  unfold assembled
  by_cases hi : Covers ds i
  · rw [if_pos hi, if_pos ((hcovers i).mp hi)]
  · rw [if_neg hi, if_neg fun hi' => hi ((hcovers i).mpr hi')]

lemma covers_cons {d : ℕ × ℕ} {ds : List (ℕ × ℕ)} {i : ℕ} :
    Covers (d :: ds) i ↔ (d.1 ≤ i ∧ i < pieceEnd d) ∨ Covers ds i := by
  simp only [Covers, List.exists_mem_cons_iff]

/-- A piece that is copied to its place is assembled with the others. -/
lemma assembled_writeAt {d : ℕ × ℕ} (hd : pieceEnd d ≤ X.length) (ds : List (ℕ × ℕ)) :
    assembled (writeAt b d.1 (slice X d.1 d.2)) X ds = assembled b X (d :: ds) := by
  funext i
  by_cases hds : Covers ds i
  · rw [assembled, if_pos hds, assembled, if_pos (covers_cons.mpr (Or.inr hds))]
    cases hx : X[i]? with
    | some x => rfl
    | none =>
      have hlen : X.length ≤ i := List.getElem?_eq_none_iff.mp hx
      refine writeAt_of_not_mem _ _ ?_
      rw [slice_length hd]
      simp only [pieceEnd] at hd
      omega
  · rw [assembled_of_not_covers hds]
    by_cases hin : d.1 ≤ i ∧ i < pieceEnd d
    · have hnew : Covers (d :: ds) i := covers_cons.mpr (Or.inl hin)
      have hx : X[i]? = some (writeAt b d.1 (slice X d.1 d.2) i) :=
        writeAt_slice_of_mem hd hin.1 hin.2
      rw [assembled, if_pos hnew, hx, Option.getD_some]
    · have hout : ¬(d.1 ≤ i ∧ i < d.1 + (slice X d.1 d.2).length) := by
        rwa [slice_length hd]
      have hnew : ¬Covers (d :: ds) i := fun h => (covers_cons.mp h).elim hin hds
      rw [assembled_of_not_covers hnew, writeAt_of_not_mem _ _ hout]

lemma reach_congr {n : ℕ} {ds ds' : List (ℕ × ℕ)} (h : ∀ d, d ∈ ds ↔ d ∈ ds') :
    Flow.reach n ds = Flow.reach n ds' := by
  have hle : ∀ {es es' : List (ℕ × ℕ)}, (∀ d, d ∈ es → d ∈ es') →
      Flow.reach n es ≤ Flow.reach n es' := fun hsub =>
    Flow.reach_le_iff.mpr ⟨Flow.le_reach _ _, fun d hd => Flow.pieceEnd_le_reach (hsub d hd)⟩
  exact le_antisymm (hle fun d => (h d).mp) (hle fun d => (h d).mpr)

/-! ### Lists of packets -/

/-- The pieces of the packets in a list. -/
def pieces (ps : List (Segment × UInt8)) : List (ℕ × ℕ) := ps.map (fun a => a.1.piece)

/-- The packets of a stream, processed in some order. -/
theorem recvAll_eq (hX : X.length ≤ bufSize) {ps : List (Segment × UInt8)} (hs : s.Sized)
    (hps : ∀ a ∈ ps, CutFrom X a.1) :
    s.recvAll ps = some ({ s with
        databuf := assembled s.databuf X (pieces ps)
        sizep := (Flow.reach s.sizep.toNat (pieces ps) : ℕ) }, ps.map acknowledge) := by
  induction ps generalizing s with
  | nil =>
    have hbuf : assembled s.databuf X [] = s.databuf :=
      funext fun i => assembled_of_not_covers (by simp [Covers])
    have hsize : ((s.sizep.toNat : ℕ) : ℤ) = s.sizep := Int.toNat_of_nonneg hs.nonneg
    simp only [MySocket.recvAll, pieces, List.map_nil, hbuf, Flow.reach_nil, hsize]
  | cons a ps ih =>
    obtain ⟨p, tmp⟩ := a
    have hp := hps _ List.mem_cons_self
    have hend : pieceEnd p.piece ≤ bufSize := hp.end_le.trans hX
    have hrecv : s.recvTCPPacket p tmp = some ({ s with
          databuf := writeAt s.databuf p.piece.1 (slice X p.piece.1 p.piece.2)
          sizep := max s.sizep (pieceEnd p.piece) }, [acknowledge (p, tmp)]) := by
      rw [MySocket.recvTCPPacket, if_neg (by rw [hp.flag]; decide),
        recvData_spec tmp hend hs.nonneg hs.fits, ← hp.payload]
      rfl
    have hnat : (max s.sizep (pieceEnd p.piece : ℤ)).toNat = max s.sizep.toNat (pieceEnd p.piece) := by
      have := hs.nonneg
      omega
    have hnext := ih (s := { s with
        databuf := writeAt s.databuf p.piece.1 (slice X p.piece.1 p.piece.2)
        sizep := max s.sizep (pieceEnd p.piece) })
      ⟨hs.nonneg.trans (le_max_left _ _), max_lt hs.fits (by have := bufSize_lt; omega)⟩
      (fun a ha => hps a (List.mem_cons_of_mem _ ha))
    simp only [hnat, assembled_writeAt hp.end_le] at hnext
    rw [MySocket.recvAll, hrecv]
    simp only [Option.bind_eq_bind, Option.bind_some, hnext]
    rfl

/-- Whatever the order of the packets and however often each of them comes: the buffer and `sizep`
are the same, bytes are written where a packet carries them and nowhere else, `sizep` is the
largest end reached, and every packet is acknowledged. -/
theorem reassembly (hX : X.length ≤ bufSize) (hs : s.Sized) {S : Set ℕ}
    (hS : ∀ i ∈ S, X[i]? = some (s.databuf i)) {ps qs : List (Segment × UInt8)}
    (hps : ∀ a ∈ ps, CutFrom X a.1) (hsame : ∀ p, p ∈ ps.map Prod.fst ↔ p ∈ qs.map Prod.fst) :
    ∃ t u, s.recvAll ps = some (t, ps.map acknowledge) ∧
      s.recvAll qs = some (u, qs.map acknowledge) ∧
      t.databuf = u.databuf ∧ t.sizep = u.sizep ∧
      t.sizep = (Flow.reach s.sizep.toNat (pieces ps) : ℕ) ∧
      (∀ i, Covers (pieces ps) i → X[i]? = some (t.databuf i)) ∧
      (∀ i, ¬Covers (pieces ps) i → t.databuf i = s.databuf i) ∧
      (∀ i ∈ S, X[i]? = some (t.databuf i)) ∧
      t.readp = s.readp ∧ t.writep = s.writep ∧ u.readp = s.readp ∧ u.writep = s.writep ∧
      ∀ a ∈ ps, (acknowledge a).ack.toNat = pieceEnd a.1.piece ∧
        (acknowledge a).info = a.1.info.mirror ∧ isAck (acknowledge a).flag := by
  have hqs : ∀ a ∈ qs, CutFrom X a.1 := by
    intro a ha
    obtain ⟨a', ha', heq⟩ := List.mem_map.mp ((hsame a.1).mpr (List.mem_map_of_mem ha))
    exact heq ▸ hps a' ha'
  have hpieces : ∀ d, d ∈ pieces ps ↔ d ∈ pieces qs := by
    have hmap : ∀ l : List (Segment × UInt8), pieces l = (l.map Prod.fst).map Segment.piece :=
      fun l => by rw [pieces, List.map_map]; rfl
    intro d
    simp only [hmap, List.mem_map (f := Segment.piece), hsame]
  have hends : ∀ d ∈ pieces ps, pieceEnd d ≤ X.length := by
    intro d hd
    obtain ⟨a, ha, rfl⟩ := List.mem_map.mp hd
    exact (hps a ha).end_le
  refine ⟨_, _, recvAll_eq hX hs hps, recvAll_eq hX hs hqs, assembled_congr hpieces,
    by dsimp only; rw [reach_congr hpieces], rfl, fun i hi => assembled_of_covers hi hends,
    fun i hi => assembled_of_not_covers hi, fun i hi => ?_, rfl, rfl, rfl, rfl, fun a ha => ?_⟩
  · by_cases hc : Covers (pieces ps) i
    · exact assembled_of_covers hc hends
    · dsimp only
      rw [assembled_of_not_covers hc]
      exact hS i hi
  · have hack : isAck (setAck 0) = true := by decide
    exact ⟨seq_add_toNat ((hps a ha).end_le.trans hX), rfl, hack⟩

/-- Two packets of a stream of three bytes that overlap in the middle one. -/
def overlapping : List (Segment × UInt8) :=
  [(⟨⟨1, 2, 3, 4⟩, 0, 0, 0, [5, 6]⟩, 0), (⟨⟨1, 2, 3, 4⟩, 1, 0, 0, [6, 7]⟩, 0)]

theorem reassembly_overlapping : ∃ t u,
    (MySocket.create ⟨2, 1, 4, 3⟩ false).recvAll overlapping = some (t, overlapping.map acknowledge) ∧
    (MySocket.create ⟨2, 1, 4, 3⟩ false).recvAll (overlapping.reverse ++ overlapping) =
      some (u, (overlapping.reverse ++ overlapping).map acknowledge) ∧
    t.databuf = u.databuf ∧ t.sizep = u.sizep ∧ t.sizep = 3 := by
  have hcut : ∀ a ∈ overlapping, CutFrom [5, 6, 7] a.1 := by
    intro a ha
    rcases List.mem_cons.mp ha with rfl | ha
    · exact ⟨by decide, by decide, by decide⟩
    · obtain rfl := List.mem_singleton.mp ha
      exact ⟨by decide, by decide, by decide⟩
  have hsame : ∀ p, p ∈ overlapping.map Prod.fst ↔
      p ∈ (overlapping.reverse ++ overlapping).map Prod.fst := by simp
  obtain ⟨t, u, ht, hu, hbuf, hsize, hreach, -⟩ := reassembly (X := [5, 6, 7]) (S := ∅) (by decide)
    (sized_create ⟨2, 1, 4, 3⟩ false) (by simp) hcut hsame
  exact ⟨t, u, ht, hu, hbuf, hsize, hreach⟩

end ITCP
