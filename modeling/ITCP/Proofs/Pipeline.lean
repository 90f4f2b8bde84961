import ITCP.Lib.Run
import ITCP.Model.Pipeline

/-!
# The pipeline is one queue

Seen from outside the pipeline is one FIFO list of pairs of a socket and a packet: nothing is lost,
doubled or moved, and the processing thread is never stuck.
-/

namespace ITCP
open Lib

namespace Pipeline

variable {P : Type} [Inhabited P]

/-- The state before any packet: empty queues with at least one place each. -/
structure Initial (s : Pipeline P) : Prop where
  queues : ∀ fd q, s.socketQueue.find? fd = some q →
    q.WF ∧ 1 ≤ q._capacity ∧ q.contents = []
  unSolved_wf : s.unSolvedSocket.WF
  unSolved_capacity : 1 ≤ s.unSolvedSocket._capacity
  unSolved_empty : s.unSolvedSocket.contents = []
  receiver : s.receiver = .idle
  processor : s.processor = .popFd
  received : s.received = []
  processed : s.processed = []

/-- The packet that has been received but not yet pushed. -/
def entering (s : Pipeline P) : List (ℤ × P) :=
  match s.receiver with
  | .pushPacket connfd p => [(connfd, p)]
  | _ => []

/-- The sockets of the queued packets, in the order of the packets: the one the processing thread
holds, those on `unSolvedSocket`, and the one the receive thread is about to push. -/
def order (s : Pipeline P) : List ℤ :=
  (match s.processor with
    | .popPacket fd => [fd]
    | .popFd => []) ++ s.unSolvedSocket.contents ++
  (match s.receiver with
    | .pushFd connfd => [connfd]
    | _ => [])

/-- The pipeline holds the list `l` of sockets and packets, and nothing has been lost, doubled or
moved: what was received is what was processed, then `l`, then the packet just entering. -/
structure Holds (s : Pipeline P) (l : List (ℤ × P)) : Prop where
  queues_wf : ∀ fd q, s.socketQueue.find? fd = some q → q.WF ∧ 1 ≤ q._capacity
  unSolved_wf : s.unSolvedSocket.WF
  unSolved_capacity : 1 ≤ s.unSolvedSocket._capacity
  order_eq : s.order = l.map Prod.fst
  queues : ∀ fd q, s.socketQueue.find? fd = some q →
    q.contents = (l.filter (fun a => a.1 = fd)).map Prod.snd
  present : ∀ a ∈ l ++ s.entering, (s.socketQueue.find? a.1).isSome
  history : s.received = s.processed ++ l ++ s.entering

lemma Initial.holds {s : Pipeline P} (h : Initial s) : Holds s [] where
  queues_wf fd q hq := ⟨(h.queues fd q hq).1, (h.queues fd q hq).2.1⟩
  unSolved_wf := h.unSolved_wf
  unSolved_capacity := h.unSolved_capacity
  order_eq := by simp [order, h.processor, h.receiver, h.unSolved_empty]
  queues fd q hq := (h.queues fd q hq).2.2
  present := by simp [entering, h.receiver]
  history := by simp [entering, h.receiver, h.received, h.processed]

variable {s t : Pipeline P} {l : List (ℤ × P)}

lemma Holds.receive (h : Holds s l) {connfd : ℤ} {p : P}
    (ht : s.step (.receive connfd p) = some t) : Holds t l := by
  simp only [step] at ht
  split at ht
  · rename_i hr
    split_ifs at ht with hfd
    rw [Option.some.injEq] at ht
    subst ht
    have hent : s.entering = [] := by simp [entering, hr]
    refine ⟨h.queues_wf, h.unSolved_wf, h.unSolved_capacity, ?_, h.queues, ?_, ?_⟩
    · simpa [order, hr] using h.order_eq
    · intro a ha
      rcases List.mem_append.mp ha with ha | ha
      · exact h.present a (List.mem_append_left _ ha)
      · simp only [entering, List.mem_singleton] at ha
        simpa [ha] using hfd
    · rw [h.history, hent]
      simp [entering]
  · cases ht

lemma Holds.pushPacket (h : Holds s l) {connfd : ℤ} {p : P} (hr : s.receiver = .pushPacket connfd p)
    (ht : s.receiverStep = some t) : Holds t (l ++ [(connfd, p)]) := by
  simp only [receiverStep, hr, Option.bind_eq_bind, Option.bind_eq_some_iff] at ht
  obtain ⟨q, hq, q', hq', ht⟩ := ht
  rw [Option.some.injEq] at ht
  subst ht
  obtain ⟨hwf, hcap⟩ := h.queues_wf connfd q hq
  obtain ⟨-, hwf', hcap', hcont⟩ := BlockingQueue.push_spec hwf hq'
  have hent : s.entering = [(connfd, p)] := by simp [entering, hr]
  refine ⟨?_, h.unSolved_wf, h.unSolved_capacity, ?_, ?_, ?_, ?_⟩
  · intro fd r hfd
    rw [OrdMap.find?_modify] at hfd
    split_ifs at hfd with he
    · rw [hq, Option.map_some, Option.some.injEq] at hfd
      exact hfd ▸ ⟨hwf', hcap' ▸ hcap⟩
    · exact h.queues_wf fd r hfd
  · have := h.order_eq
    simp only [order, hr, List.append_nil] at this
    simp [order, this]
  · intro fd r hfd
    rw [OrdMap.find?_modify] at hfd
    split_ifs at hfd with he
    · rw [hq, Option.map_some, Option.some.injEq] at hfd
      rw [← hfd, hcont, h.queues connfd q hq, he]
      simp
    · rw [h.queues fd r hfd]
      simp [Ne.symm he]
  · intro a ha
    have ha' : a ∈ l ++ s.entering := by
      rw [hent]
      simpa [entering] using ha
    rw [OrdMap.isSome_find?_modify]
    exact h.present a ha'
  · rw [h.history, hent]
    simp [entering]

lemma Holds.pushFd (h : Holds s l) {connfd : ℤ} (hr : s.receiver = .pushFd connfd)
    (ht : s.receiverStep = some t) : Holds t l := by
  simp only [receiverStep, hr, Option.bind_eq_bind, Option.bind_eq_some_iff] at ht
  obtain ⟨q', hq', ht⟩ := ht
  rw [Option.some.injEq] at ht
  subst ht
  obtain ⟨-, hwf', hcap', hcont⟩ := BlockingQueue.push_spec h.unSolved_wf hq'
  have hent : s.entering = [] := by simp [entering, hr]
  refine ⟨h.queues_wf, hwf', hcap' ▸ h.unSolved_capacity, ?_, h.queues, ?_, ?_⟩
  · rw [← h.order_eq]
    simp [order, hr, hcont]
  · intro a ha
    exact h.present a (by simpa [entering, hr] using ha)
  · rw [h.history, hent]
    simp [entering]

lemma Holds.popFd (h : Holds s l) (hp : s.processor = .popFd)
    (ht : s.processorStep = some t) : Holds t l := by
  simp only [processorStep, hp, Option.bind_eq_bind, Option.bind_eq_some_iff] at ht
  obtain ⟨⟨fd, q'⟩, hq', ht⟩ := ht
  rw [Option.some.injEq] at ht
  subst ht
  obtain ⟨hwf', hcap', hcont⟩ := BlockingQueue.pop_spec h.unSolved_wf hq'
  refine ⟨h.queues_wf, hwf', hcap' ▸ h.unSolved_capacity, ?_, h.queues, h.present, h.history⟩
  rw [← h.order_eq]
  simp [order, hp, hcont]

/-- The packet the processing thread pops is the first one the pipeline holds. -/
lemma Holds.popPacket (h : Holds s l) {fd : ℤ} (hp : s.processor = .popPacket fd)
    (ht : s.processorStep = some t) :
    ∃ p l', l = (fd, p) :: l' ∧ t.processed = s.processed ++ [(fd, p)] ∧ Holds t l' := by
  simp only [processorStep, hp, Option.bind_eq_bind, Option.bind_eq_some_iff] at ht
  obtain ⟨q, hq, ⟨p, q'⟩, hq', ht⟩ := ht
  rw [Option.some.injEq] at ht
  subst ht
  obtain ⟨hwf, hcap⟩ := h.queues_wf fd q hq
  obtain ⟨hwf', hcap', hcont⟩ := BlockingQueue.pop_spec hwf hq'
  have horder := h.order_eq
  simp only [order, hp, List.cons_append, List.nil_append] at horder
  obtain ⟨⟨fd', p'⟩, l', rfl⟩ : ∃ a l', l = a :: l' := by
    cases l with
    | nil => simp at horder
    | cons a l' => exact ⟨a, l', rfl⟩
  simp only [List.map_cons, List.cons.injEq] at horder
  obtain ⟨rfl, horder⟩ := horder
  have hfirst := h.queues fd q hq
  rw [hcont] at hfirst
  simp only [List.filter_cons, decide_true, if_true, List.map_cons, List.cons.injEq] at hfirst
  obtain ⟨rfl, hrest⟩ := hfirst
  refine ⟨p, l', rfl, rfl, ?_, h.unSolved_wf, h.unSolved_capacity, ?_, ?_, ?_, ?_⟩
  · intro fd' r hfd
    rw [OrdMap.find?_modify] at hfd
    split_ifs at hfd with he
    · rw [hq, Option.map_some, Option.some.injEq] at hfd
      exact hfd ▸ ⟨hwf', hcap' ▸ hcap⟩
    · exact h.queues_wf fd' r hfd
  · simpa [order] using horder
  · intro fd' r hfd
    rw [OrdMap.find?_modify] at hfd
    split_ifs at hfd with he
    · rw [hq, Option.map_some, Option.some.injEq] at hfd
      rw [← hfd, he, hrest]
    · rw [h.queues fd' r hfd]
      simp [Ne.symm he]
  · intro a ha
    rw [OrdMap.isSome_find?_modify]
    exact h.present a (List.mem_cons_of_mem _ ha)
  · rw [h.history]
    simp [entering]

lemma Holds.socketCreate (h : Holds s l) {fd : ℤ} {capacity : ℕ}
    (ht : s.step (.socketCreate fd capacity) = some t) : Holds t l := by
  simp only [step] at ht
  split_ifs at ht with hcap
  rw [Option.some.injEq] at ht
  subst ht
  have hnew : ∀ fd' q, (s.socketQueue.insert fd (.new capacity)).find? fd' = some q →
      s.socketQueue.find? fd' = some q ∨
        s.socketQueue.find? fd' = none ∧ q = BlockingQueue.new capacity := by
    intro fd' q hq
    rw [OrdMap.find?_insert] at hq
    split_ifs at hq with he
    · cases hf : s.socketQueue.find? fd with
      | none =>
        rw [hf, Option.getD_none, Option.some.injEq] at hq
        exact Or.inr ⟨he ▸ hf, hq.symm⟩
      | some q' =>
        rw [hf, Option.getD_some, Option.some.injEq] at hq
        exact Or.inl (by rw [he, hf, hq])
    · exact Or.inl hq
  refine ⟨?_, h.unSolved_wf, h.unSolved_capacity, h.order_eq, ?_, ?_, h.history⟩
  · intro fd' q hq
    rcases hnew fd' q hq with hq | ⟨-, rfl⟩
    · exact h.queues_wf fd' q hq
    · exact ⟨BlockingQueue.wf_new capacity, by simpa [BlockingQueue.new] using hcap⟩
  · intro fd' q hq
    rcases hnew fd' q hq with hq | ⟨hnone, rfl⟩
    · exact h.queues fd' q hq
    · -- no packet is held for a socket that had no queue
      rw [BlockingQueue.contents_new, eq_comm, List.map_eq_nil_iff, List.filter_eq_nil_iff]
      intro a ha hfd
      have := h.present a (List.mem_append_left _ ha)
      rw [of_decide_eq_true hfd, hnone] at this
      cases this
  · intro a ha
    have := h.present a ha
    rw [OrdMap.find?_insert]
    split_ifs
    · rfl
    · exact this

/-- Every step keeps the pipeline a FIFO list of sockets and packets. -/
theorem holds_step (s : Pipeline P) (e : PipelineEvent P) (t : Pipeline P)
    (h : ∃ l, Holds s l) (ht : s.step e = some t) : ∃ l, Holds t l := by
  obtain ⟨l, h⟩ := h
  cases e with
  | receive connfd p => exact ⟨l, h.receive ht⟩
  | receiverStep =>
    cases hr : s.receiver with
    | idle => simp [step, receiverStep, hr] at ht
    | pushPacket connfd p => exact ⟨_, h.pushPacket hr ht⟩
    | pushFd connfd => exact ⟨l, h.pushFd hr ht⟩
  | processorStep =>
    cases hp : s.processor with
    | popFd => exact ⟨l, h.popFd hp ht⟩
    | popPacket fd =>
      obtain ⟨p, l', -, -, h'⟩ := h.popPacket hp ht
      exact ⟨l', h'⟩
  | socketCreate fd capacity => exact ⟨l, h.socketCreate ht⟩

/-- A processing thread that holds a socket finds a packet on its queue. -/
lemma Holds.queue_nonempty (h : Holds s l) {fd : ℤ} (hp : s.processor = .popPacket fd) :
    ∃ q p q', s.socketQueue.find? fd = some q ∧ q.pop = some (p, q') := by
  have horder := h.order_eq
  simp only [order, hp, List.cons_append, List.nil_append] at horder
  obtain ⟨⟨fd', p⟩, l', rfl⟩ : ∃ a l', l = a :: l' := by
    cases l with
    | nil => simp at horder
    | cons a l' => exact ⟨a, l', rfl⟩
  simp only [List.map_cons, List.cons.injEq] at horder
  obtain ⟨rfl, -⟩ := horder
  obtain ⟨q, hq⟩ := Option.isSome_iff_exists.mp (h.present _ List.mem_cons_self)
  have hne : q.contents ≠ [] := by
    rw [h.queues fd q hq]
    simp
  cases hpop : q.pop with
  | none => exact absurd ((BlockingQueue.pop_eq_none (h.queues_wf fd q hq).1).mp hpop) hne
  | some r => exact ⟨q, r.1, r.2, hq, hpop⟩

/-- There is a place in the queue that the receive thread pushes on next. -/
def HasRoom (s : Pipeline P) : Prop :=
  match s.receiver with
  | .idle => True
  | .pushPacket connfd _ => ∀ q, s.socketQueue.find? connfd = some q →
      q.contents.length < q._capacity.toNat
  | .pushFd _ => s.unSolvedSocket.contents.length < s.unSolvedSocket._capacity.toNat

lemma Holds.receiverStep_isSome (h : Holds s l) (hroom : s.HasRoom) (hbusy : s.receiver ≠ .idle) :
    s.receiverStep.isSome := by
  unfold HasRoom at hroom
  cases hrec : s.receiver with
  | idle => exact absurd hrec hbusy
  | pushPacket connfd p =>
    rw [hrec] at hroom
    obtain ⟨q, hq⟩ := Option.isSome_iff_exists.mp
      (h.present (connfd, p) (by simp [entering, hrec]))
    cases hpush : q.push p with
    | none =>
      rw [BlockingQueue.push_eq_none (h.queues_wf connfd q hq).1] at hpush
      exact absurd hpush (hroom q hq).ne
    | some q' => simp [receiverStep, hrec, hq, hpush]
  | pushFd connfd =>
    rw [hrec] at hroom
    cases hpush : s.unSolvedSocket.push connfd with
    | none =>
      rw [BlockingQueue.push_eq_none h.unSolved_wf] at hpush
      exact absurd hpush hroom.ne
    | some q' => simp [receiverStep, hrec, hpush]

/-- If neither thread can move, the pipeline is empty and the receive thread has no packet. -/
lemma Holds.not_stuck (h : Holds s l) (hr : s.receiverStep = none) (hp : s.processorStep = none) :
    l = [] ∧ s.receiver = .idle := by
  have hproc : s.processor = .popFd := by
    cases hproc : s.processor with
    | popFd => rfl
    | popPacket fd =>
      obtain ⟨q, p, q', hq, hpop⟩ := h.queue_nonempty hproc
      simp [processorStep, hproc, hq, hpop] at hp
  have hempty : s.unSolvedSocket.contents = [] := by
    rw [← BlockingQueue.pop_eq_none h.unSolved_wf]
    cases hpop : s.unSolvedSocket.pop with
    | none => rfl
    | some r => simp [processorStep, hproc, hpop] at hp
  have horder := h.order_eq
  simp only [order, hproc, hempty, List.nil_append] at horder
  have hroom : s.HasRoom := by
    unfold HasRoom
    cases hrec : s.receiver with
    | idle => trivial
    | pushPacket connfd p =>
      rw [hrec] at horder
      have hl : l = [] := List.map_eq_nil_iff.mp horder.symm
      intro q hq
      have hcap := (h.queues_wf connfd q hq).2
      rw [h.queues connfd q hq, hl, List.filter_nil, List.map_nil, List.length_nil]
      omega
    | pushFd connfd =>
      have hcap := h.unSolved_capacity
      dsimp only
      rw [hempty, List.length_nil]
      omega
  have hidle : s.receiver = .idle := by
    by_contra hbusy
    have hsome := h.receiverStep_isSome hroom hbusy
    rw [hr] at hsome
    cases hsome
  rw [hidle] at horder
  exact ⟨List.map_eq_nil_iff.mp horder.symm, hidle⟩

/-- In order, exactly once, never stuck. What has been processed is a prefix of what was received,
with the sockets chosen on receipt; the pop inside `readIPPacket` finds a packet; and while a
packet is queued or entering, one of the two threads can move. -/
theorem pipeline_in_order_never_stuck {s t : Pipeline P} {es : List (PipelineEvent P)}
    (hs : Initial s) (h : run step s es = some t) :
    t.processed <+: t.received ∧
    (∀ fd, t.processor = .popPacket fd →
      ∃ q p q', t.socketQueue.find? fd = some q ∧ q.pop = some (p, q')) ∧
    ((t.receiver ≠ .idle ∨ ∃ fd q, t.socketQueue.find? fd = some q ∧ q.contents ≠ []) →
      t.receiverStep ≠ none ∨ t.processorStep ≠ none) := by
  obtain ⟨l, hl⟩ := run_invariant holds_step ⟨[], hs.holds⟩ h
  refine ⟨⟨l ++ t.entering, ?_⟩, fun fd hp => hl.queue_nonempty hp, fun hq => ?_⟩
  · rw [hl.history, List.append_assoc]
  · by_contra hstuck
    push Not at hstuck
    obtain ⟨hnil, hidle⟩ := hl.not_stuck hstuck.1 hstuck.2
    rcases hq with hq | ⟨fd, q, hq, hne⟩
    · exact hq hidle
    · exact hne (by rw [hl.queues fd q hq, hnil]; rfl)

/-- A pipeline with two sockets whose queues have one place each. -/
def small : Pipeline ℕ where
  socketQueue := (OrdMap.empty.insert 100 (.new 1)).insert 101 (.new 1)
  unSolvedSocket := .new 1
  receiver := .idle
  processor := .popFd
  received := []
  processed := []

lemma small_initial : Initial small where
  queues fd q hq := by
    have hnew : q = .new 1 := by
      simp only [small, OrdMap.find?_insert] at hq
      split_ifs at hq <;> simp_all
    subst hnew
    exact ⟨BlockingQueue.wf_new 1, le_rfl, rfl⟩
  unSolved_wf := BlockingQueue.wf_new 1
  unSolved_capacity := le_rfl
  unSolved_empty := rfl
  receiver := rfl
  processor := rfl
  received := rfl
  processed := rfl

/-- Two packets for two sockets; the second is received before the first is processed. -/
def twoPackets : List (PipelineEvent ℕ) :=
  [.receive 101 7, .receiverStep, .receiverStep, .receive 100 8, .receiverStep, .processorStep,
    .receiverStep, .processorStep, .processorStep, .processorStep]

theorem pipeline_in_order_never_stuck_twoPackets :
    ∃ t, run step small twoPackets = some t ∧ t.processed = [(101, 7), (100, 8)] ∧
      t.processed <+: t.received := by
  have hrun : run step small twoPackets = some _ := (Option.some_get (by decide +kernel)).symm
  exact ⟨_, hrun, by decide +kernel, (pipeline_in_order_never_stuck small_initial hrun).1⟩

end Pipeline

end ITCP
