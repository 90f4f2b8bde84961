import ITCP.Lib.Fifo
import ITCP.Model.Monitor

/-!
# The queue under any number of threads

Two facts about all interleavings of `push` and `pop`. The values go through a bounded FIFO queue,
of which the ring with its two indices is an implementation. And no wake-up is lost: while a
consumer is blocked, every stored value has a notified consumer on its way to it, and likewise for
producers and free slots.
-/

namespace ITCP
open Lib

namespace Monitor

variable {ι α : Type} [Inhabited α] {m m' : Monitor ι α} {c : ℕ}

/-- The bounded FIFO queue that the ring stores. -/
def view (m : Monitor ι α) : Fifo α where
  capacity := m.queue._capacity.toNat
  items := m.queue.contents
  pushed := m.pushed
  popped := m.popped

/-- What a locked section that pushes does: the thread blocks on a full queue, or its value is
appended and a consumer is notified. -/
lemma push_cases {i : ι} {e : α} {k : ℕ} (hwf : m.queue.WF) (h : m.push i e k = some m') :
    (m.queue.contents.length = m.queue._capacity.toNat ∧
      m' = { m with _not_full := m._not_full.wait (i, e) }) ∨
    ∃ queue _not_empty, m._not_empty.notifyOne k = some _not_empty ∧
      m.queue.contents.length < m.queue._capacity.toNat ∧
      queue.WF ∧ queue._capacity = m.queue._capacity ∧
      queue.contents = m.queue.contents ++ [e] ∧
      m' = { m with queue := queue, _not_empty := _not_empty, pushed := m.pushed ++ [e] } := by
  unfold push at h
  split at h
  · rename_i hpush
    obtain rfl := Option.some.inj h
    exact Or.inl ⟨(BlockingQueue.push_eq_none hwf).mp hpush, rfl⟩
  · rename_i queue hpush
    obtain ⟨_not_empty, hnotify, h⟩ := Option.bind_eq_some_iff.mp h
    obtain rfl := Option.some.inj h
    obtain ⟨hlt, hwf', hcap, hcontents⟩ := BlockingQueue.push_spec hwf hpush
    exact Or.inr ⟨queue, _not_empty, hnotify, hlt, hwf', hcap, hcontents, rfl⟩

/-- What a locked section that pops does: the thread blocks on an empty queue, or it takes the
first value and a producer is notified. -/
lemma pop_cases {i : ι} {k : ℕ} (hwf : m.queue.WF) (h : m.pop i k = some m') :
    (m.queue.contents = [] ∧ m' = { m with _not_empty := m._not_empty.wait i }) ∨
    ∃ res queue _not_full, m._not_full.notifyOne k = some _not_full ∧
      queue.WF ∧ queue._capacity = m.queue._capacity ∧
      m.queue.contents = res :: queue.contents ∧
      m' = { m with queue := queue, _not_full := _not_full, popped := m.popped ++ [res] } := by
  unfold pop at h
  split at h
  · rename_i hpop
    obtain rfl := Option.some.inj h
    exact Or.inl ⟨(BlockingQueue.pop_eq_none hwf).mp hpop, rfl⟩
  · rename_i res queue hpop
    obtain ⟨_not_full, hnotify, h⟩ := Option.bind_eq_some_iff.mp h
    obtain rfl := Option.some.inj h
    obtain ⟨hwf', hcap, hcontents⟩ := BlockingQueue.pop_spec hwf hpop
    exact Or.inr ⟨res, queue, _not_full, hnotify, hwf', hcap, hcontents, rfl⟩

/-- The queue is a ring of the given capacity that never leaves its slots. -/
structure Sound (c : ℕ) (m : Monitor ι α) : Prop where
  wf : m.queue.WF
  capacity : m.queue._capacity = c

lemma sound_new (c : ℕ) : Sound c (new c : Monitor ι α) := ⟨BlockingQueue.wf_new c, rfl⟩

lemma Sound.push {i : ι} {e : α} {k : ℕ} (h : Sound c m) (hm : m.push i e k = some m') :
    Sound c m' := by
  obtain ⟨-, rfl⟩ | ⟨queue, _, -, -, hwf, hcap, -, rfl⟩ := push_cases h.wf hm
  · exact ⟨h.wf, h.capacity⟩
  · exact ⟨hwf, hcap.trans h.capacity⟩

lemma Sound.pop {i : ι} {k : ℕ} (h : Sound c m) (hm : m.pop i k = some m') : Sound c m' := by
  obtain ⟨-, rfl⟩ | ⟨_, queue, _, -, hwf, hcap, -, rfl⟩ := pop_cases h.wf hm
  · exact ⟨h.wf, h.capacity⟩
  · exact ⟨hwf, hcap.trans h.capacity⟩

/-- A locked section that pushes is a push of the bounded queue, or leaves it alone. -/
lemma view_push {i : ι} {e : α} {k : ℕ} (h : Sound c m) (hm : m.push i e k = some m') :
    m'.view = m.view ∨ m.view.step (.push e) = some m'.view := by
  obtain ⟨-, rfl⟩ | ⟨queue, _, -, hlt, -, hcap, hcontents, rfl⟩ := push_cases h.wf hm
  · exact Or.inl rfl
  · refine Or.inr ((if_pos hlt).trans ?_)
    rw [view, view, hcontents, hcap]

lemma view_pop {i : ι} {k : ℕ} (h : Sound c m) (hm : m.pop i k = some m') :
    m'.view = m.view ∨ m.view.step .pop = some m'.view := by
  obtain ⟨-, rfl⟩ | ⟨res, queue, _, -, -, hcap, hcontents, rfl⟩ := pop_cases h.wf hm
  · exact Or.inl rfl
  · refine Or.inr ?_
    simp only [Fifo.step, view, hcontents, hcap]

/-- What one step does: a thread gets to the test of its loop and runs its locked section, or a
blocked thread wakes up. -/
lemma step_cases [DecidableEq ι] {ev : MonitorEvent ι α} (h : m.step ev = some m') :
    (∃ i e k d, m._not_full.Enters (i, e) d ∧
      { m with _not_full := d }.push i e k = some m') ∨
    (∃ i k d, m._not_empty.Enters i d ∧ { m with _not_empty := d }.pop i k = some m') ∨
    (∃ j d, m._not_full.wakeup j = some d ∧ m' = { m with _not_full := d }) ∨
    ∃ j d, m._not_empty.wakeup j = some d ∧ m' = { m with _not_empty := d } := by
  cases ev with
  | push i e k =>
    simp only [step] at h
    split_ifs at h
    exact Or.inl ⟨i, e, k, m._not_full, .call, h⟩
  | pop i k =>
    simp only [step] at h
    split_ifs at h
    exact Or.inr (Or.inl ⟨i, k, m._not_empty, .call, h⟩)
  | pushNotified j k =>
    obtain ⟨⟨⟨i, e⟩, d⟩, hd, h⟩ := Option.bind_eq_some_iff.mp h
    exact Or.inl ⟨i, e, k, d, .notified hd, h⟩
  | popNotified j k =>
    obtain ⟨⟨i, d⟩, hd, h⟩ := Option.bind_eq_some_iff.mp h
    exact Or.inr (Or.inl ⟨i, k, d, .notified hd, h⟩)
  | pushSpurious j k =>
    obtain ⟨⟨⟨i, e⟩, d⟩, hd, h⟩ := Option.bind_eq_some_iff.mp h
    exact Or.inl ⟨i, e, k, d, .spurious hd, h⟩
  | popSpurious j k =>
    obtain ⟨⟨i, d⟩, hd, h⟩ := Option.bind_eq_some_iff.mp h
    exact Or.inr (Or.inl ⟨i, k, d, .spurious hd, h⟩)
  | wakeupProducer j =>
    obtain ⟨d, hd, h⟩ := Option.bind_eq_some_iff.mp h
    exact Or.inr (Or.inr (Or.inl ⟨j, d, hd, (Option.some.inj h).symm⟩))
  | wakeupConsumer j =>
    obtain ⟨d, hd, h⟩ := Option.bind_eq_some_iff.mp h
    exact Or.inr (Or.inr (Or.inr ⟨j, d, hd, (Option.some.inj h).symm⟩))

lemma Sound.step [DecidableEq ι] {ev : MonitorEvent ι α} (h : Sound c m)
    (hm : m.step ev = some m') : Sound c m' := by
  obtain ⟨i, e, k, d, -, hm⟩ | ⟨i, k, d, -, hm⟩ | ⟨j, d, -, rfl⟩ | ⟨j, d, -, rfl⟩ :=
    step_cases hm
  · exact Sound.push (m := { m with _not_full := d }) ⟨h.wf, h.capacity⟩ hm
  · exact Sound.pop (m := { m with _not_empty := d }) ⟨h.wf, h.capacity⟩ hm
  · exact ⟨h.wf, h.capacity⟩
  · exact ⟨h.wf, h.capacity⟩

/-- Every step is one of the bounded queue, or leaves it alone. -/
lemma view_step [DecidableEq ι] {ev : MonitorEvent ι α} (h : Sound c m)
    (hm : m.step ev = some m') : m'.view = m.view ∨ ∃ e, m.view.step e = some m'.view := by
  obtain ⟨i, e, k, d, -, hm⟩ | ⟨i, k, d, -, hm⟩ | ⟨j, d, -, rfl⟩ | ⟨j, d, -, rfl⟩ :=
    step_cases hm
  · exact (view_push (m := { m with _not_full := d }) ⟨h.wf, h.capacity⟩ hm).imp id (⟨_, ·⟩)
  · exact (view_pop (m := { m with _not_empty := d }) ⟨h.wf, h.capacity⟩ hm).imp id (⟨_, ·⟩)
  · exact Or.inl rfl
  · exact Or.inl rfl

/-- While a consumer is blocked, every stored value has a notified consumer on its way, and while a
producer is blocked, every free slot has a notified producer on its way. -/
structure Awake (m : Monitor ι α) : Prop where
  not_empty : m._not_empty.Served m.queue.contents.length
  not_full : m._not_full.Served (m.queue._capacity.toNat - m.queue.contents.length)

/-- A producer that has the lock may find one free slot without a notified producer: its own. -/
lemma awake_push {i : ι} {e : α} {k : ℕ} (hwf : m.queue.WF)
    (hempty : m._not_empty.Served m.queue.contents.length)
    (hfull : m._not_full.Served (m.queue._capacity.toNat - m.queue.contents.length - 1))
    (hm : m.push i e k = some m') : Awake m' := by
  obtain ⟨hlen, rfl⟩ | ⟨queue, d, hnotify, -, -, hcap, hcontents, rfl⟩ := push_cases hwf hm
  · refine ⟨hempty, ?_⟩
    dsimp only
    rw [hlen, Nat.sub_self]
    exact Condition.served_zero _
  · have hlen : queue.contents.length = m.queue.contents.length + 1 := by
      rw [hcontents, List.length_append, List.length_singleton]
    refine ⟨?_, ?_⟩
    · dsimp only
      rw [hlen]
      exact hempty.notifyOne hnotify
    · dsimp only
      rw [hlen, hcap, Nat.sub_add_eq]
      exact hfull

/-- A consumer that has the lock may find one value without a notified consumer: its own. -/
lemma awake_pop {i : ι} {k : ℕ} (hwf : m.queue.WF)
    (hempty : m._not_empty.Served (m.queue.contents.length - 1))
    (hfull : m._not_full.Served (m.queue._capacity.toNat - m.queue.contents.length))
    (hm : m.pop i k = some m') : Awake m' := by
  obtain ⟨hnil, rfl⟩ | ⟨res, queue, d, hnotify, -, hcap, hcontents, rfl⟩ := pop_cases hwf hm
  · refine ⟨?_, hfull⟩
    dsimp only
    rw [hnil]
    exact Condition.served_zero _
  · have hlen : m.queue.contents.length = queue.contents.length + 1 := by
      rw [hcontents, List.length_cons]
    have hle := hwf.length_contents_le
    refine ⟨?_, ?_⟩
    · rw [hlen, Nat.add_sub_cancel] at hempty
      exact hempty
    · exact (hfull.notifyOne hnotify).mono (by dsimp only; omega)

lemma Awake.step [DecidableEq ι] {ev : MonitorEvent ι α} (hs : Sound c m) (h : Awake m)
    (hm : m.step ev = some m') : Awake m' := by
  obtain ⟨i, e, k, d, hd, hm⟩ | ⟨i, k, d, hd, hm⟩ | ⟨j, d, hd, rfl⟩ | ⟨j, d, hd, rfl⟩ :=
    step_cases hm
  · exact awake_push (m := { m with _not_full := d }) hs.wf h.not_empty (h.not_full.enters hd) hm
  · exact awake_pop (m := { m with _not_empty := d }) hs.wf (h.not_empty.enters hd) h.not_full hm
  · exact ⟨h.not_empty, h.not_full.wakeup hd⟩
  · exact ⟨h.not_empty.wakeup hd, h.not_full⟩

variable [DecidableEq ι] {es : List (MonitorEvent ι α)}

lemma sound_of_run (h : run step (new c) es = some m) : Sound c m :=
  run_invariant (I := Sound c) (fun _ _ _ hs hm => hs.step hm) (sound_new c) h

lemma fifo_of_run (h : run step (new c) es = some m) :
    ∃ fs, run Fifo.step (Fifo.new c) fs = some m.view := by
  refine run_simulation (I := Sound c) view (fun _ _ _ hs hm => hs.step hm) (fun s e t hs ht => ?_)
    (sound_new c) h
  obtain hview | ⟨e, he⟩ := view_step hs ht
  · exact ⟨[], by rw [run_nil, hview]⟩
  · exact ⟨[e], run_cons_eq_some.mpr ⟨_, he, run_nil _ _⟩⟩

/-- `BlockingQueue` is a bounded FIFO queue: under any number of threads and in any order of their
locked sections the indices stay in the ring and the sums in the range of `int`, the two tests
tell empty and full, and what has been pushed is what has been popped followed by what is stored.
The next section leaves the stored values alone, appends one or takes the first one. -/
theorem blockingQueue_refines_fifo (hc : 2 * c < 2 ^ 31) (h : run step (new c) es = some m) :
    (0 ≤ m.queue._start ∧ m.queue._start ≤ c ∧ 0 ≤ m.queue._end ∧ m.queue._end ≤ c) ∧
    (0 ≤ m.queue._start + m.queue._capacity - m.queue._end ∧
      m.queue._start + m.queue._capacity < 2 ^ 31 ∧ m.queue._end + 1 < 2 ^ 31) ∧
    (∃ fs, run Fifo.step (Fifo.new c) fs = some m.view) ∧
    (m.queue.isempty ↔ m.view.items = []) ∧ (m.queue.isfull ↔ m.view.items.length = c) ∧
    m.view.items.length ≤ c ∧ m.popped ++ m.view.items = m.pushed ∧ m.popped <+: m.pushed ∧
    ∀ ev m', m.step ev = some m' → m'.view = m.view ∨ ∃ e, m.view.step e = some m'.view := by
  have hs := sound_of_run h
  have hcap := hs.capacity
  have h1 := hs.wf.start_nonneg
  have h2 := hs.wf.start_le
  have h3 := hs.wf.end_nonneg
  have h4 := hs.wf.end_le
  have hfull := hs.wf.isfull_iff
  have hlen := hs.wf.length_contents_le
  rw [hcap, Int.toNat_natCast] at hfull hlen
  obtain ⟨fs, hfs⟩ := fifo_of_run h
  have hlawful := Fifo.lawful_of_run (Fifo.lawful_new c) hfs
  exact ⟨by omega, by omega, ⟨fs, hfs⟩, hs.wf.isempty_iff, hfull, hlen, hlawful.history,
    hlawful.popped_prefix, fun _ _ hm => view_step hs hm⟩

/-- A queue of one place: a consumer blocks, a producer fills the queue and wakes it up, a second
producer blocks, and the consumer takes the value. -/
theorem blockingQueue_refines_fifo_one : ∃ m : Monitor ℕ ℕ,
    run step (new 1) [.pop 0 0, .push 1 7 0, .push 2 8 0, .popNotified 0 0] = some m ∧
    m._not_full.notified = [(2, 8)] ∧ m.popped = [7] ∧ m.popped ++ m.view.items = m.pushed := by
  have h : run step (new 1 : Monitor ℕ ℕ)
      [.pop 0 0, .push 1 7 0, .push 2 8 0, .popNotified 0 0] = some _ := rfl
  obtain ⟨-, -, -, -, -, -, hhistory, -⟩ := blockingQueue_refines_fifo (c := 1) (by decide) h
  exact ⟨_, h, rfl, rfl, hhistory⟩

/-- `BlockingQueue` loses no wake-up: while a thread is blocked without having been notified, as
many notified threads are on their way as there are values to pop, or free slots to fill. So if the
blocked thread could proceed, somebody is on the way. -/
theorem no_lost_wakeup (h : run step (new c) es = some m) :
    (m._not_empty.waiting ≠ [] → m.queue.contents.length ≤ m._not_empty.notified.length) ∧
    (m._not_full.waiting ≠ [] → c - m.queue.contents.length ≤ m._not_full.notified.length) ∧
    (m._not_empty.waiting ≠ [] → ¬m.queue.isempty → m._not_empty.notified ≠ []) ∧
    (m._not_full.waiting ≠ [] → ¬m.queue.isfull → m._not_full.notified ≠ []) := by
  obtain ⟨hs, hawake⟩ : Sound c m ∧ Awake m :=
    run_invariant (I := fun m => Sound c m ∧ Awake m)
      (fun _ _ _ hs hm => ⟨hs.1.step hm, Awake.step hs.1 hs.2 hm⟩)
      ⟨sound_new c, Condition.served_empty _, Condition.served_empty _⟩ h
  have hempty := hawake.not_empty
  have hfull := hawake.not_full
  have hlen := hs.wf.length_contents_le
  have hfull_iff := hs.wf.isfull_iff
  rw [hs.capacity, Int.toNat_natCast] at hfull hlen hfull_iff
  refine ⟨hempty, hfull, fun hw hne hnil => ?_, fun hw hne hnil => ?_⟩
  · have := hempty hw
    rw [hnil, List.length_nil, Nat.le_zero, List.length_eq_zero_iff] at this
    exact hne (hs.wf.isempty_iff.mpr this)
  · have := hfull hw
    rw [hnil, List.length_nil] at this
    exact hne (hfull_iff.mpr (by omega))

/-- Two consumers block, and a value wakes up the second one. -/
theorem no_lost_wakeup_two : ∃ m : Monitor ℕ ℕ,
    run step (new 1) [.pop 0 0, .pop 1 0, .push 2 7 1] = some m ∧ m._not_empty.waiting = [0] ∧
    m.queue.contents = [7] ∧ m.queue.contents.length ≤ m._not_empty.notified.length := by
  have h : run step (new 1 : Monitor ℕ ℕ) [.pop 0 0, .pop 1 0, .push 2 7 1] = some _ := rfl
  exact ⟨_, h, rfl, rfl, (no_lost_wakeup h).1 (List.cons_ne_nil 0 [])⟩

end Monitor

end ITCP
