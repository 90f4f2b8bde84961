import ITCP.Model.Connection

/-!
# One direction of a connection, in numbers

The abstract model of a one-way transfer: how many bytes the writer has written and how far it
has sent, how many the reader has, and the pieces of the stream (an offset and a length) and the
acknowledgement numbers on their way. It says what the transfer is for; the sockets are shown to
follow it in `ITCP.Proofs.Connection`.
-/

namespace ITCP
open Lib

structure Flow where
  /-- The number of bytes written. -/
  total : ℕ
  /-- The offset from which the next piece is sent. -/
  writep : ℕ
  /-- The number of bytes the reader takes for received. -/
  size : ℕ
  segs : List (ℕ × ℕ)
  acks : List ℕ
  /-- The pieces that have reached the reader. -/
  arrived : List (ℕ × ℕ)
  pc : WritePc

inductive FlowEvent
  | write (k : ℕ)
  | send
  | writeReturn
  | data (i : ℕ)
  | ack (i : ℕ)
  | dropData (i : ℕ)
  | dropAck (i : ℕ)
  | repeatData (i : ℕ)
  | repeatAck (i : ℕ)
  | skip

/-- The end of a piece. -/
def pieceEnd (d : ℕ × ℕ) : ℕ := d.1 + d.2

/-- One of the pieces contains the byte at offset `i`. -/
def Covers (ds : List (ℕ × ℕ)) (i : ℕ) : Prop := ∃ d ∈ ds, d.1 ≤ i ∧ i < pieceEnd d

/-- The network loses and repeats nothing. -/
def FlowEvent.Lossless : FlowEvent → Prop
  | .dropData _ | .dropAck _ | .repeatData _ | .repeatAck _ => False
  | _ => True

/-- The network moreover delivers in order. -/
def FlowEvent.Fifo : FlowEvent → Prop
  | .dropData _ | .dropAck _ | .repeatData _ | .repeatAck _ => False
  | .data i | .ack i => i = 0
  | _ => True

lemma FlowEvent.Fifo.lossless {e : FlowEvent} (h : e.Fifo) : e.Lossless := by
  cases e <;> trivial

namespace Flow

/-- The length of the next piece from offset `a` on. -/
def pieceLen (f : Flow) (a : ℕ) : ℕ := min 1000 (f.total - a)

/-- An acknowledgement taken off the list moves the writer back to it, and the bytes behind it are
sent again. A writer that does not `listen` only takes it off the list. -/
def recvAck (listens : Bool) (f : Flow) (i a : ℕ) : Flow :=
  if listens then { f with
    acks := f.acks.eraseIdx i
    writep := a
    segs := if a < f.total then f.segs ++ [(a, f.pieceLen a)] else f.segs }
  else { f with acks := f.acks.eraseIdx i }

/-- A piece reaches the reader, which acknowledges its end. -/
def recvData (f : Flow) (i : ℕ) (d : ℕ × ℕ) : Flow :=
  { f with
    segs := f.segs.eraseIdx i
    size := max f.size (pieceEnd d)
    acks := f.acks ++ [pieceEnd d]
    arrived := f.arrived ++ [d] }

def step (listens : Bool) (f : Flow) : FlowEvent → Option Flow
  | .write k => if f.pc = .idle then some { f with total := f.total + k, pc := .wrote } else none
  | .send =>
    if f.pc = .wrote then some { f with
      segs := f.segs ++ [(f.writep, f.pieceLen f.writep)]
      writep := f.writep + f.pieceLen f.writep
      pc := .spin }
    else none
  | .writeReturn => if f.pc = .spin ∧ f.writep = f.total then some { f with pc := .idle } else none
  | .data i => f.segs[i]?.map (f.recvData i)
  | .ack i => f.acks[i]?.map (f.recvAck listens i)
  | .dropData i => some { f with segs := f.segs.eraseIdx i }
  | .dropAck i => some { f with acks := f.acks.eraseIdx i }
  | .repeatData i => f.segs[i]?.map (fun d => { f with segs := f.segs ++ [d] })
  | .repeatAck i => f.acks[i]?.map (fun a => { f with acks := f.acks ++ [a] })
  | .skip => some f

/-! ### What holds on any network -/

/-- Offsets stay below what has been written, and only received ends are acknowledged. -/
structure Sound (f : Flow) : Prop where
  writep_le : f.writep ≤ f.total
  size_le : f.size ≤ f.total
  segs_le : ∀ d ∈ f.segs, pieceEnd d ≤ f.total
  acks_le : ∀ a ∈ f.acks, a ≤ f.size
  arrived_le : ∀ d ∈ f.arrived, pieceEnd d ≤ f.size

variable {listens : Bool} {f g : Flow}

lemma write_cases {k : ℕ} (hg : f.step listens (.write k) = some g) :
    f.pc = .idle ∧ g = { f with total := f.total + k, pc := .wrote } := by
  obtain ⟨hpc, hg⟩ := Option.ite_none_right_eq_some.mp hg
  exact ⟨hpc, (Option.some.inj hg).symm⟩

lemma send_cases (hg : f.step listens .send = some g) : f.pc = .wrote ∧ g = { f with
    segs := f.segs ++ [(f.writep, f.pieceLen f.writep)]
    writep := f.writep + f.pieceLen f.writep
    pc := .spin } := by
  obtain ⟨hpc, hg⟩ := Option.ite_none_right_eq_some.mp hg
  exact ⟨hpc, (Option.some.inj hg).symm⟩

lemma writeReturn_cases (hg : f.step listens .writeReturn = some g) :
    (f.pc = .spin ∧ f.writep = f.total) ∧ g = { f with pc := .idle } := by
  obtain ⟨hpc, hg⟩ := Option.ite_none_right_eq_some.mp hg
  exact ⟨hpc, (Option.some.inj hg).symm⟩

lemma pieceEnd_pieceLen_le (f : Flow) {a : ℕ} (h : a ≤ f.total) :
    pieceEnd (a, f.pieceLen a) ≤ f.total := by
  simp only [pieceEnd, pieceLen]
  omega

lemma Sound.recvAck (h : f.Sound) {i a : ℕ} (ha : f.acks[i]? = some a) :
    (f.recvAck listens i a).Sound := by
  have hle : a ≤ f.total := (h.acks_le a (List.mem_of_getElem? ha)).trans h.size_le
  have hacks : ∀ b ∈ f.acks.eraseIdx i, b ≤ f.size :=
    fun b hb => h.acks_le b (List.mem_of_mem_eraseIdx hb)
  unfold Flow.recvAck
  split_ifs
  · refine ⟨hle, h.size_le, fun d hd => ?_, hacks, h.arrived_le⟩
    rcases List.mem_append.mp hd with hd | hd
    · exact h.segs_le d hd
    · rw [List.mem_singleton.mp hd]
      exact f.pieceEnd_pieceLen_le hle
  · exact ⟨hle, h.size_le, h.segs_le, hacks, h.arrived_le⟩
  · exact ⟨h.writep_le, h.size_le, h.segs_le, hacks, h.arrived_le⟩

lemma Sound.recvData (h : f.Sound) {i : ℕ} {d : ℕ × ℕ} (hd : f.segs[i]? = some d) :
    (f.recvData i d).Sound := by
  have hle : pieceEnd d ≤ f.total := h.segs_le d (List.mem_of_getElem? hd)
  refine ⟨h.writep_le, max_le h.size_le hle, ?_, ?_, ?_⟩
  · exact fun d' hd' => h.segs_le d' (List.mem_of_mem_eraseIdx hd')
  · intro a ha
    rcases List.mem_append.mp ha with ha | ha
    · exact (h.acks_le a ha).trans (le_max_left _ _)
    · rw [List.mem_singleton.mp ha]
      exact le_max_right _ _
  · intro d' hd'
    rcases List.mem_append.mp hd' with hd' | hd'
    · exact (h.arrived_le d' hd').trans (le_max_left _ _)
    · rw [List.mem_singleton.mp hd']
      exact le_max_right _ _

theorem sound_step (e : FlowEvent) (h : f.Sound) (hg : f.step listens e = some g) : g.Sound := by
  obtain ⟨hw, hs, hsegs, hacks, harr⟩ := h
  cases e with
  | write k =>
    obtain ⟨-, rfl⟩ := write_cases hg
    exact ⟨Nat.le_add_right_of_le hw, Nat.le_add_right_of_le hs,
      fun d hd => Nat.le_add_right_of_le (hsegs d hd), hacks, harr⟩
  | send =>
    obtain ⟨-, rfl⟩ := send_cases hg
    refine ⟨f.pieceEnd_pieceLen_le hw, hs, fun d hd => ?_, hacks, harr⟩
    rcases List.mem_append.mp hd with hd | hd
    · exact hsegs d hd
    · rw [List.mem_singleton.mp hd]
      exact f.pieceEnd_pieceLen_le hw
  | writeReturn =>
    obtain ⟨-, rfl⟩ := writeReturn_cases hg
    exact ⟨hw, hs, hsegs, hacks, harr⟩
  | data i =>
    obtain ⟨d, hd, rfl⟩ := Option.map_eq_some_iff.mp hg
    exact Sound.recvData ⟨hw, hs, hsegs, hacks, harr⟩ hd
  | ack i =>
    obtain ⟨a, ha, rfl⟩ := Option.map_eq_some_iff.mp hg
    exact Sound.recvAck ⟨hw, hs, hsegs, hacks, harr⟩ ha
  | dropData i =>
    cases hg
    exact ⟨hw, hs, fun d hd => hsegs d (List.mem_of_mem_eraseIdx hd), hacks, harr⟩
  | dropAck i =>
    cases hg
    exact ⟨hw, hs, hsegs, fun a ha => hacks a (List.mem_of_mem_eraseIdx ha), harr⟩
  | repeatData i =>
    obtain ⟨d, hd, rfl⟩ := Option.map_eq_some_iff.mp hg
    refine ⟨hw, hs, fun d' hd' => ?_, hacks, harr⟩
    rcases List.mem_append.mp hd' with hd' | hd'
    · exact hsegs d' hd'
    · exact hsegs d' (List.mem_singleton.mp hd' ▸ List.mem_of_getElem? hd)
  | repeatAck i =>
    obtain ⟨a, ha, rfl⟩ := Option.map_eq_some_iff.mp hg
    refine ⟨hw, hs, hsegs, fun b hb => ?_, harr⟩
    rcases List.mem_append.mp hb with hb | hb
    · exact hacks b hb
    · exact hacks b (List.mem_singleton.mp hb ▸ List.mem_of_getElem? ha)
  | skip =>
    cases hg
    exact ⟨hw, hs, hsegs, hacks, harr⟩

/-! ### Pieces that arrive without a gap -/

/-- Every byte the reader takes for received has arrived. -/
def Gapless (f : Flow) : Prop := ∀ i, i < f.size → Covers f.arrived i

lemma covers_append_left {ds ds' : List (ℕ × ℕ)} {i : ℕ} (h : Covers ds i) :
    Covers (ds ++ ds') i := by
  obtain ⟨d, hd, hi⟩ := h
  exact ⟨d, List.mem_append_left _ hd, hi⟩

lemma covers_append {ds ds' : List (ℕ × ℕ)} {i : ℕ} :
    Covers (ds ++ ds') i ↔ Covers ds i ∨ Covers ds' i := by
  simp only [Covers, List.mem_append, or_and_right, exists_or]

lemma Gapless.recvData (h : f.Gapless) {i : ℕ} {d : ℕ × ℕ} (hd : d.1 ≤ f.size) :
    (f.recvData i d).Gapless := by
  intro j hj
  by_cases hs : j < f.size
  · exact covers_append_left (h j hs)
  · have hend : j < pieceEnd d := (lt_max_iff.mp hj).resolve_left hs
    exact ⟨d, List.mem_append_right _ (List.mem_singleton_self d), by omega, hend⟩

/-- A piece that starts behind the bytes received leaves the next byte out. -/
lemma not_covers_recvData (h : f.Sound) {i : ℕ} {d : ℕ × ℕ} (hd : f.size < d.1) :
    ¬Covers (f.recvData i d).arrived f.size := by
  rintro ⟨d', hd', hle, hend⟩
  rcases List.mem_append.mp hd' with hd' | hd'
  · have := h.arrived_le d' hd'
    omega
  · rw [List.mem_singleton.mp hd'] at hle
    omega

theorem gapless_step (e : FlowEvent) (h : f.Gapless)
    (he : ∀ i d, e = .data i → f.segs[i]? = some d → d.1 ≤ f.size)
    (hg : f.step listens e = some g) : g.Gapless := by
  cases e with
  | write k => obtain ⟨-, rfl⟩ := write_cases hg; exact h
  | send => obtain ⟨-, rfl⟩ := send_cases hg; exact h
  | writeReturn => obtain ⟨-, rfl⟩ := writeReturn_cases hg; exact h
  | data i =>
    obtain ⟨d, hd, rfl⟩ := Option.map_eq_some_iff.mp hg
    exact h.recvData (he i d rfl hd)
  | ack i =>
    obtain ⟨a, ha, rfl⟩ := Option.map_eq_some_iff.mp hg
    unfold recvAck
    split_ifs <;> exact h
  | dropData i => cases hg; exact h
  | dropAck i => cases hg; exact h
  | repeatData i => obtain ⟨d, hd, rfl⟩ := Option.map_eq_some_iff.mp hg; exact h
  | repeatAck i => obtain ⟨a, ha, rfl⟩ := Option.map_eq_some_iff.mp hg; exact h
  | skip => cases hg; exact h

/-! ### How far the bytes on their way reach -/

/-- The largest of `n` and the ends of the pieces. -/
def reach (n : ℕ) (ds : List (ℕ × ℕ)) : ℕ := ds.foldl (fun m d => max m (pieceEnd d)) n

@[simp] lemma reach_nil (n : ℕ) : reach n [] = n := rfl

lemma reach_cons (n : ℕ) (d : ℕ × ℕ) (ds : List (ℕ × ℕ)) :
    reach n (d :: ds) = reach (max n (pieceEnd d)) ds := rfl

lemma reach_append (n : ℕ) (ds ds' : List (ℕ × ℕ)) :
    reach n (ds ++ ds') = reach (reach n ds) ds' := List.foldl_append

lemma reach_le_iff {n m : ℕ} {ds : List (ℕ × ℕ)} :
    reach n ds ≤ m ↔ n ≤ m ∧ ∀ d ∈ ds, pieceEnd d ≤ m := by
  induction ds generalizing n with
  | nil => simp
  | cons d ds ih =>
    rw [reach_cons, ih, max_le_iff, List.forall_mem_cons, and_assoc]

lemma le_reach (n : ℕ) (ds : List (ℕ × ℕ)) : n ≤ reach n ds := (reach_le_iff.mp le_rfl).1

lemma pieceEnd_le_reach {n : ℕ} {d : ℕ × ℕ} {ds : List (ℕ × ℕ)} (h : d ∈ ds) :
    pieceEnd d ≤ reach n ds := (reach_le_iff.mp le_rfl).2 d h

lemma mem_iff_eraseIdx {α : Type*} {l : List α} {i : ℕ} {a b : α} (h : l[i]? = some a) :
    b ∈ l ↔ b = a ∨ b ∈ l.eraseIdx i := by
  obtain ⟨hi, rfl⟩ := List.getElem?_eq_some_iff.mp h
  rw [← (List.getElem_cons_eraseIdx_perm hi).mem_iff, List.mem_cons]

/-- A piece that reaches the reader moves from the pieces on their way into the size. -/
lemma reach_eraseIdx {n i : ℕ} {d : ℕ × ℕ} {ds : List (ℕ × ℕ)} (h : ds[i]? = some d) :
    reach (max n (pieceEnd d)) (ds.eraseIdx i) = reach n ds := by
  apply le_antisymm
  · refine reach_le_iff.mpr ⟨max_le (le_reach n ds) (pieceEnd_le_reach (List.mem_of_getElem? h)),
      fun d' hd' => pieceEnd_le_reach (List.mem_of_mem_eraseIdx hd')⟩
  · refine reach_le_iff.mpr ⟨(le_max_left _ _).trans (le_reach _ _), fun d' hd' => ?_⟩
    rcases (mem_iff_eraseIdx h).mp hd' with rfl | hd'
    · exact (le_max_right _ _).trans (le_reach _ _)
    · exact pieceEnd_le_reach hd'

/-! ### Networks that lose and repeat nothing -/

/-- Nothing between the reader's size and the end of the last piece on its way is missing: every
byte below that end has arrived or is on its way, and the writer sends from below it. -/
structure Covering (f : Flow) : Prop where
  covers : ∀ i, i < reach f.size f.segs → Covers (f.arrived ++ f.segs) i
  writep_le : f.writep ≤ reach f.size f.segs

lemma reach_snoc (n : ℕ) (ds : List (ℕ × ℕ)) (d : ℕ × ℕ) :
    reach n (ds ++ [d]) = max (reach n ds) (pieceEnd d) := by
  rw [reach_append, reach_cons, reach_nil]

/-- A piece sent from below the reach leaves nothing missing. -/
lemma covers_snoc {n a l : ℕ} {ds ds' : List (ℕ × ℕ)} (ha : a ≤ reach n ds)
    (h : ∀ i, i < reach n ds → Covers (ds' ++ ds) i) :
    ∀ i, i < reach n (ds ++ [(a, l)]) → Covers (ds' ++ (ds ++ [(a, l)])) i := by
  intro i hi
  rw [← List.append_assoc]
  by_cases hr : i < reach n ds
  · exact covers_append_left (h i hr)
  · rw [reach_snoc] at hi
    have hend := (lt_max_iff.mp hi).resolve_left hr
    exact ⟨(a, l), List.mem_append_right _ (List.mem_singleton_self _), by omega, hend⟩

lemma Covering.recvAck (h : f.Covering) (hs : f.Sound) {i a : ℕ} (ha : f.acks[i]? = some a) :
    (f.recvAck listens i a).Covering := by
  have hle : a ≤ reach f.size f.segs :=
    (hs.acks_le a (List.mem_of_getElem? ha)).trans (le_reach _ _)
  unfold Flow.recvAck
  split_ifs
  · refine ⟨covers_snoc hle h.covers, ?_⟩
    rw [reach_snoc]
    exact hle.trans (le_max_left _ _)
  · exact ⟨h.covers, hle⟩
  · exact ⟨h.covers, h.writep_le⟩

lemma Covering.recvData (h : f.Covering) {i : ℕ} {d : ℕ × ℕ} (hd : f.segs[i]? = some d) :
    (f.recvData i d).Covering := by
  constructor
  · intro j hj
    simp only [Flow.recvData] at hj ⊢
    rw [reach_eraseIdx hd] at hj
    obtain ⟨d', hd', hin⟩ := h.covers j hj
    refine ⟨d', ?_, hin⟩
    rcases List.mem_append.mp hd' with hd' | hd'
    · exact List.mem_append_left _ (List.mem_append_left _ hd')
    · rcases (mem_iff_eraseIdx hd).mp hd' with rfl | hd'
      · exact List.mem_append_left _ (List.mem_append_right _ (List.mem_singleton_self d'))
      · exact List.mem_append_right _ hd'
  · simp only [Flow.recvData]
    rw [reach_eraseIdx hd]
    exact h.writep_le

theorem covering_step (e : FlowEvent) (he : e.Lossless) (hs : f.Sound) (h : f.Covering)
    (hg : f.step listens e = some g) : g.Covering := by
  cases e with
  | write k => obtain ⟨-, rfl⟩ := write_cases hg; exact ⟨h.covers, h.writep_le⟩
  | send =>
    obtain ⟨-, rfl⟩ := send_cases hg
    refine ⟨covers_snoc h.writep_le h.covers, ?_⟩
    rw [reach_snoc]
    exact le_max_right _ _
  | writeReturn => obtain ⟨-, rfl⟩ := writeReturn_cases hg; exact ⟨h.covers, h.writep_le⟩
  | data i =>
    obtain ⟨d, hd, rfl⟩ := Option.map_eq_some_iff.mp hg
    exact h.recvData hd
  | ack i =>
    obtain ⟨a, ha, rfl⟩ := Option.map_eq_some_iff.mp hg
    exact h.recvAck hs ha
  | skip => cases hg; exact h
  | dropData i | dropAck i | repeatData i | repeatAck i => exact he.elim

/-! ### Networks that deliver in order -/

/-- Each piece starts at or below the end of what came before it. -/
def Contiguous : ℕ → List (ℕ × ℕ) → Prop
  | _, [] => True
  | n, d :: ds => d.1 ≤ n ∧ Contiguous (max n (pieceEnd d)) ds

lemma contiguous_snoc {n : ℕ} {ds : List (ℕ × ℕ)} {d : ℕ × ℕ} :
    Contiguous n (ds ++ [d]) ↔ Contiguous n ds ∧ d.1 ≤ reach n ds := by
  induction ds generalizing n with
  | nil => simp [Contiguous]
  | cons d' ds ih => simp only [List.cons_append, Contiguous, ih, reach_cons, and_assoc]

theorem contiguous_step (e : FlowEvent) (he : e.Fifo) (hs : f.Sound) (hc : f.Covering)
    (h : Contiguous f.size f.segs) (hg : f.step listens e = some g) :
    Contiguous g.size g.segs := by
  cases e with
  | write k => obtain ⟨-, rfl⟩ := write_cases hg; exact h
  | send =>
    obtain ⟨-, rfl⟩ := send_cases hg
    exact contiguous_snoc.mpr ⟨h, hc.writep_le⟩
  | writeReturn => obtain ⟨-, rfl⟩ := writeReturn_cases hg; exact h
  | data i =>
    obtain ⟨d, hd, rfl⟩ := Option.map_eq_some_iff.mp hg
    obtain rfl : i = 0 := he
    rw [← List.head?_eq_getElem?] at hd
    obtain ⟨ds, hsegs⟩ := List.head?_eq_some_iff.mp hd
    rw [hsegs] at h
    simpa [recvData, hsegs] using h.2
  | ack i =>
    obtain ⟨a, ha, rfl⟩ := Option.map_eq_some_iff.mp hg
    have hle := (hs.acks_le a (List.mem_of_getElem? ha)).trans (le_reach f.size f.segs)
    unfold recvAck
    split_ifs
    · exact contiguous_snoc.mpr ⟨h, hle⟩
    · exact h
    · exact h
  | skip => cases hg; exact h
  | dropData i | dropAck i | repeatData i | repeatAck i => exact he.elim

/-- In order, the piece that reaches the reader starts within what it has. -/
lemma Contiguous.head_le (h : Contiguous f.size f.segs) {d : ℕ × ℕ} (hd : f.segs[0]? = some d) :
    d.1 ≤ f.size := by
  rw [← List.head?_eq_getElem?] at hd
  obtain ⟨ds, hsegs⟩ := List.head?_eq_some_iff.mp hd
  rw [hsegs] at h
  exact h.1

/-! ### Completion -/

/-- Whatever is missing is still on its way: with nothing to send and nothing on its way, the
writer has caught up and the reader has everything. -/
def Live (f : Flow) : Prop :=
  f.pc = .wrote ∨ f.segs ≠ [] ∨ f.acks ≠ [] ∨ (f.writep = f.total ∧ f.size = f.total)

theorem live_step (e : FlowEvent) (he : e.Lossless) (hs : f.Sound) (h : f.Live)
    (hg : f.step true e = some g) : g.Live := by
  cases e with
  | write k => obtain ⟨-, rfl⟩ := write_cases hg; exact Or.inl rfl
  | send =>
    obtain ⟨-, rfl⟩ := send_cases hg
    exact Or.inr (Or.inl (by simp))
  | writeReturn =>
    obtain ⟨hpc, rfl⟩ := writeReturn_cases hg
    refine Or.inr (h.resolve_left ?_)
    rw [hpc.1]
    simp
  | data i =>
    obtain ⟨d, hd, rfl⟩ := Option.map_eq_some_iff.mp hg
    exact Or.inr (Or.inr (Or.inl (by simp [recvData])))
  | ack i =>
    obtain ⟨a, ha, rfl⟩ := Option.map_eq_some_iff.mp hg
    have hle : a ≤ f.size := hs.acks_le a (List.mem_of_getElem? ha)
    have := hs.size_le
    simp only [recvAck, if_true]
    split_ifs
    · exact Or.inr (Or.inl (by simp))
    · exact Or.inr (Or.inr (Or.inr ⟨by dsimp only; omega, by dsimp only; omega⟩))
  | skip => cases hg; exact h
  | dropData i | dropAck i | repeatData i | repeatAck i => exact he.elim

/-- A writer whose writes all fit into one piece has caught up whenever it has sent. -/
structure Direct (f : Flow) : Prop where
  wrote : f.pc = .wrote → f.total ≤ f.writep + 1000
  sent : f.pc ≠ .wrote → f.writep = f.total

theorem direct_step (e : FlowEvent) (he : ∀ k, e = .write k → k ≤ 1000) (hs : f.Sound)
    (h : f.Direct) (hg : f.step false e = some g) : g.Direct := by
  cases e with
  | write k =>
    obtain ⟨hpc, rfl⟩ := write_cases hg
    have hk := he k rfl
    have hw := h.sent (by simp [hpc])
    exact ⟨fun _ => by dsimp only; omega, fun hne => absurd rfl hne⟩
  | send =>
    obtain ⟨hpc, rfl⟩ := send_cases hg
    have hle := h.wrote hpc
    have hw := hs.writep_le
    refine ⟨fun hne => absurd hne (by simp), fun _ => ?_⟩
    simp only [pieceLen]
    omega
  | writeReturn =>
    obtain ⟨hpc, rfl⟩ := writeReturn_cases hg
    exact ⟨fun hne => absurd hne (by simp), fun _ => hpc.2⟩
  | data i => obtain ⟨d, hd, rfl⟩ := Option.map_eq_some_iff.mp hg; exact ⟨h.wrote, h.sent⟩
  | ack i => obtain ⟨a, ha, rfl⟩ := Option.map_eq_some_iff.mp hg; exact ⟨h.wrote, h.sent⟩
  | dropData i => cases hg; exact ⟨h.wrote, h.sent⟩
  | dropAck i => cases hg; exact ⟨h.wrote, h.sent⟩
  | repeatData i => obtain ⟨d, hd, rfl⟩ := Option.map_eq_some_iff.mp hg; exact ⟨h.wrote, h.sent⟩
  | repeatAck i => obtain ⟨a, ha, rfl⟩ := Option.map_eq_some_iff.mp hg; exact ⟨h.wrote, h.sent⟩
  | skip => cases hg; exact h

/-! ### Termination -/

/-- The number of packets that can still be processed on account of a piece of a stream of at most
`T` bytes, and of an acknowledgement. -/
def segWeight (T : ℕ) (d : ℕ × ℕ) : ℕ := 2 * (T - pieceEnd d) + 2

def ackWeight (T a : ℕ) : ℕ := 2 * (T - a) + 1

/-- The same for a writer that has yet to send. -/
def pcWeight (T : ℕ) : WritePc → ℕ
  | .wrote => 2 * T + 2
  | _ => 0

def potential (T : ℕ) (f : Flow) : ℕ :=
  (f.segs.map (segWeight T)).sum + (f.acks.map (ackWeight T)).sum + pcWeight T f.pc

/-- One packet is processed. -/
def cost : FlowEvent → ℕ
  | .data _ | .ack _ => 1
  | _ => 0

/-- A write pays for the piece that its send step sends. -/
def pay (T : ℕ) : FlowEvent → ℕ
  | .write _ => 2 * T + 2
  | _ => 0

lemma sum_map_eraseIdx {α : Type*} (w : α → ℕ) {l : List α} {i : ℕ} {a : α}
    (h : l[i]? = some a) : (l.map w).sum = w a + ((l.eraseIdx i).map w).sum := by
  obtain ⟨hi, rfl⟩ := List.getElem?_eq_some_iff.mp h
  rw [← List.sum_cons, ← List.map_cons]
  exact ((List.getElem_cons_eraseIdx_perm hi).symm.map w).sum_eq

theorem potential_step {T : ℕ} (e : FlowEvent) (he : e.Lossless)
    (hT : f.total ≤ T) (hg : f.step listens e = some g) :
    g.potential T + cost e ≤ f.potential T + pay T e := by
  cases e with
  | write k =>
    obtain ⟨hpc, rfl⟩ := write_cases hg
    simp [potential, hpc, cost, pay, pcWeight]
  | send =>
    obtain ⟨hpc, rfl⟩ := send_cases hg
    simp only [potential, hpc, cost, pay, List.map_append, List.sum_append, List.map_singleton,
      List.sum_singleton, segWeight, pcWeight]
    omega
  | writeReturn =>
    obtain ⟨hpc, rfl⟩ := writeReturn_cases hg
    simp [potential, hpc.1, cost, pay, pcWeight]
  | data i =>
    obtain ⟨d, hd, rfl⟩ := Option.map_eq_some_iff.mp hg
    have hsum := sum_map_eraseIdx (segWeight T) hd
    have hweight : segWeight T d = ackWeight T (pieceEnd d) + 1 := rfl
    simp only [potential, recvData, cost, pay, List.map_append, List.sum_append, List.map_singleton,
      List.sum_singleton, hsum, hweight]
    omega
  | ack i =>
    obtain ⟨a, ha, rfl⟩ := Option.map_eq_some_iff.mp hg
    have hsum := sum_map_eraseIdx (ackWeight T) ha
    simp only [potential, recvAck, cost, pay]
    split_ifs <;>
      simp only [hsum, ackWeight, segWeight, List.map_append, List.sum_append, List.map_singleton,
        List.sum_singleton, pieceEnd, pieceLen] <;> omega
  | skip => cases hg; simp [cost, pay]
  | dropData i | dropAck i | repeatData i | repeatAck i => exact he.elim

end Flow

end ITCP
