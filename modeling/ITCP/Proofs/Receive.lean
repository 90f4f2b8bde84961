import ITCP.Model.Threads
import ITCP.Proofs.Pipeline

/-!
# The kernel behind its queues

The kernel with a single list of pending packets can do whatever the two threads do with the queues
between them.
-/

namespace ITCP
open Lib

namespace Pipeline

variable {P : Type} [Inhabited P] {s t : Pipeline P} {l : List (ℤ × P)}

/-- The packets received and not yet processed, with the sockets chosen for them. -/
def pending (s : Pipeline P) : List (ℤ × P) := s.received.drop s.processed.length

lemma Holds.pending_eq (h : Holds s l) : s.pending = l ++ s.entering := by
  rw [pending, h.history, List.append_assoc, List.drop_left]

lemma pending_receive (h : Holds s l) {connfd : ℤ} {p : P}
    (ht : s.step (.receive connfd p) = some t) : t.pending = s.pending ++ [(connfd, p)] := by
  rw [(h.receive ht).pending_eq, h.pending_eq]
  simp only [step] at ht
  split at ht
  · rename_i hr
    split_ifs at ht
    obtain rfl := Option.some.inj ht
    simp [entering, hr]
  · cases ht

lemma pending_receiverStep (h : Holds s l) (ht : s.receiverStep = some t) :
    t.pending = s.pending := by
  cases hr : s.receiver with
  | idle => simp [receiverStep, hr] at ht
  | pushPacket connfd p =>
    rw [(h.pushPacket hr ht).pending_eq, h.pending_eq]
    simp only [receiverStep, hr, Option.bind_eq_bind, Option.bind_eq_some_iff] at ht
    obtain ⟨q, -, q', -, ht⟩ := ht
    obtain rfl := Option.some.inj ht
    simp [entering, hr]
  | pushFd connfd =>
    rw [(h.pushFd hr ht).pending_eq, h.pending_eq]
    simp only [receiverStep, hr, Option.bind_eq_bind, Option.bind_eq_some_iff] at ht
    obtain ⟨q, -, ht⟩ := ht
    obtain rfl := Option.some.inj ht
    simp [entering, hr]

lemma pending_popFd (hp : s.processor = .popFd) (ht : s.processorStep = some t) :
    t.pending = s.pending := by
  simp only [processorStep, hp, Option.bind_eq_bind, Option.bind_eq_some_iff] at ht
  obtain ⟨q, -, ht⟩ := ht
  obtain rfl := Option.some.inj ht
  rfl

/-- The packet at the front of the queue of `fd` is the first one pending. -/
lemma pending_popPacket (h : Holds s l) {fd : ℤ} (hp : s.processor = .popPacket fd)
    {q q' : BlockingQueue P} {p : P} (hq : s.socketQueue.find? fd = some q)
    (hpop : q.pop = some (p, q')) (ht : s.processorStep = some t) :
    s.pending = (fd, p) :: t.pending := by
  obtain ⟨p', l', rfl, hprocessed, h'⟩ := h.popPacket hp ht
  simp only [processorStep, hp, hq, hpop, Option.bind_eq_bind, Option.bind_some] at ht
  obtain rfl := Option.some.inj ht
  obtain ⟨-, rfl⟩ := Prod.mk.inj (List.singleton_inj.mp (List.append_cancel_left hprocessed))
  rw [h'.pending_eq, h.pending_eq]
  rfl

end Pipeline

/-- A call processes no packet. -/
lemma Kernel.step_log {k k' : Kernel} {e : KernelEvent} (h : k.step e = some k')
    (he : ∀ tmp, e ≠ .process tmp) : k'.log = k.log := by
  cases e with
  | socket address b =>
    cases h
    simp only [socketCreate]
    split_ifs <;> rfl
  | bind fd address =>
    cases h
    rfl
  | listen fd backlog =>
    simp only [step, socketListen] at h
    split_ifs at h <;> cases h <;> rfl
  | accept fd =>
    obtain ⟨_, -, h⟩ := Option.bind_eq_some_iff.mp h
    cases h
    rfl
  | acceptReturn i =>
    obtain ⟨_, -, h⟩ := Option.bind_eq_some_iff.mp h
    obtain ⟨_, -, h⟩ := Option.bind_eq_some_iff.mp h
    split_ifs at h
    cases h
    rfl
  | recv p =>
    obtain ⟨_, -, h⟩ := Option.bind_eq_some_iff.mp h
    cases h
    rfl
  | process tmp => exact absurd rfl (he tmp)

namespace Threads

/-- The kernel with the packets of the pipeline in one list. -/
def view (s : Threads) : Kernel := { s.kernel with pending := s.pipeline.pending }

lemma addQueue_holds {s : Threads} {l : List (ℤ × Segment)} (h : s.pipeline.Holds l) {capacity : ℕ}
    (hcap : 1 ≤ capacity) : (s.addQueue capacity).Holds l :=
  h.socketCreate (if_pos hcap)

lemma createQueue_holds {s : Threads} {l : List (ℤ × Segment)} (h : s.pipeline.Holds l)
    (e : KernelEvent) :
    (s.createQueue e).Holds l ∧ (s.createQueue e).pending = s.pipeline.pending := by
  unfold createQueue
  split
  · split
    · exact ⟨h, rfl⟩
    · exact ⟨addQueue_holds h (by decide), rfl⟩
  · exact ⟨addQueue_holds h (by decide), rfl⟩
  · exact ⟨h, rfl⟩

/-- The calls do not look at the pending packets. -/
lemma step_pending {k k' : Kernel} {e : KernelEvent} (hrecv : ∀ p, e ≠ .recv p)
    (hprocess : ∀ tmp, e ≠ .process tmp) (pending : List (ℤ × Segment))
    (h : k.step e = some k') :
    Kernel.step { k with pending := pending } e = some { k' with pending := pending } := by
  cases e with
  | socket address accAckReady =>
    obtain rfl := Option.some.inj h
    simp only [Kernel.step, Kernel.socketCreate]
    split <;> rfl
  | bind fd address =>
    obtain rfl := Option.some.inj h
    rfl
  | listen fd backlog =>
    simp only [Kernel.step, Kernel.socketListen] at h ⊢
    split_ifs at h ⊢
    · obtain rfl := Option.some.inj h
      rfl
    · obtain rfl := Option.some.inj h
      rfl
  | accept fd =>
    obtain ⟨s, hs, h⟩ := Option.bind_eq_some_iff.mp h
    obtain rfl := Option.some.inj h
    exact Option.bind_eq_some_iff.mpr ⟨s, hs, rfl⟩
  | acceptReturn i =>
    obtain ⟨call, hcall, h⟩ := Option.bind_eq_some_iff.mp h
    obtain ⟨s, hs, h⟩ := Option.bind_eq_some_iff.mp h
    refine Option.bind_eq_some_iff.mpr ⟨call, hcall, Option.bind_eq_some_iff.mpr ⟨s, hs, ?_⟩⟩
    split_ifs at h ⊢
    obtain rfl := Option.some.inj h
    rfl
  | recv p => exact absurd rfl (hrecv p)
  | process tmp => exact absurd rfl (hprocess tmp)

lemma step_call_eq_some {s t : Threads} {e : KernelEvent} (h : s.step (.call e) = some t) :
    (∀ p, e ≠ .recv p) ∧ (∀ tmp, e ≠ .process tmp) ∧
      ∃ kernel, s.kernel.step e = some kernel ∧ t = ⟨kernel, s.createQueue e⟩ := by
  cases e with
  | recv | process => cases h
  | socket | bind | listen | accept | acceptReturn =>
    simp only [step, Option.bind_eq_bind, Option.bind_eq_some_iff, Option.some.injEq] at h
    obtain ⟨kernel, hk, rfl⟩ := h
    exact ⟨nofun, nofun, kernel, hk, rfl⟩

/-- Every step of the threads is a step of the kernel with a single list, or none. -/
lemma step_simulates {s t : Threads} {e : ThreadsEvent} (h : ∃ l, s.pipeline.Holds l)
    (ht : s.step e = some t) : ∃ es, run Kernel.step s.view es = some t.view := by
  obtain ⟨l, h⟩ := h
  cases e with
  | call e =>
    obtain ⟨hrecv, hprocess, kernel, hk, rfl⟩ := step_call_eq_some ht
    refine ⟨[e], run_cons_eq_some.mpr ⟨_, step_pending hrecv hprocess _ hk, ?_⟩⟩
    rw [run_nil, view, (createQueue_holds h e).2]
  | receive p =>
    obtain ⟨⟨fd, sockets⟩, hrecv, ht⟩ := Option.bind_eq_some_iff.mp ht
    obtain ⟨pipeline, hpipe, ht⟩ := Option.bind_eq_some_iff.mp ht
    obtain rfl := Option.some.inj ht
    refine ⟨[.recv p], run_cons_eq_some.mpr ⟨_, Option.bind_eq_some_iff.mpr ⟨_, hrecv, rfl⟩, ?_⟩⟩
    simp only [run_nil, view, Pipeline.pending_receive h hpipe]
  | receiverStep =>
    obtain ⟨pipeline, hpipe, ht⟩ := Option.bind_eq_some_iff.mp ht
    obtain rfl := Option.some.inj ht
    exact ⟨[], by rw [run_nil, view, view, Pipeline.pending_receiverStep h hpipe]⟩
  | processorStep tmp =>
    obtain ⟨pipeline, hpipe, ht⟩ := Option.bind_eq_some_iff.mp ht
    cases hp : s.pipeline.processor with
    | popFd =>
      rw [hp] at ht
      obtain rfl := Option.some.inj ht
      exact ⟨[], by rw [run_nil, view, view, Pipeline.pending_popFd hp hpipe]⟩
    | popPacket fd =>
      rw [hp] at ht
      obtain ⟨kernel, hread, ht⟩ := Option.bind_eq_some_iff.mp ht
      obtain rfl := Option.some.inj ht
      obtain ⟨q, hq, hread⟩ := Option.bind_eq_some_iff.mp hread
      obtain ⟨⟨p, q'⟩, hpop, hread⟩ := Option.bind_eq_some_iff.mp hread
      obtain ⟨sock, hsock, hread⟩ := Option.bind_eq_some_iff.mp hread
      obtain ⟨⟨u, out⟩, hpacket, hread⟩ := Option.bind_eq_some_iff.mp hread
      obtain rfl := Option.some.inj hread
      have hpending := Pipeline.pending_popPacket h hp hq hpop hpipe
      refine ⟨[.process tmp], run_cons_eq_some.mpr ⟨_, ?_, run_nil _ _⟩⟩
      simp only [Kernel.step, Kernel.process, view, hpending, hsock, hpacket, Option.bind_eq_bind,
        Option.bind_some]

lemma step_holds {s t : Threads} {e : ThreadsEvent} (h : ∃ l, s.pipeline.Holds l)
    (ht : s.step e = some t) : ∃ l, t.pipeline.Holds l := by
  obtain ⟨l, h⟩ := h
  cases e with
  | call e =>
    obtain ⟨-, -, kernel, -, rfl⟩ := step_call_eq_some ht
    exact ⟨l, (createQueue_holds h e).1⟩
  | receive p =>
    obtain ⟨⟨fd, sockets⟩, -, ht⟩ := Option.bind_eq_some_iff.mp ht
    obtain ⟨pipeline, hpipe, ht⟩ := Option.bind_eq_some_iff.mp ht
    obtain rfl := Option.some.inj ht
    exact Pipeline.holds_step _ _ _ ⟨l, h⟩ hpipe
  | receiverStep =>
    obtain ⟨pipeline, hpipe, ht⟩ := Option.bind_eq_some_iff.mp ht
    obtain rfl := Option.some.inj ht
    exact Pipeline.holds_step _ .receiverStep _ ⟨l, h⟩ hpipe
  | processorStep tmp =>
    obtain ⟨pipeline, hpipe, ht⟩ := Option.bind_eq_some_iff.mp ht
    have hholds := Pipeline.holds_step _ .processorStep _ ⟨l, h⟩ hpipe
    split at ht
    · obtain rfl := Option.some.inj ht
      exact hholds
    · obtain ⟨kernel, -, ht⟩ := Option.bind_eq_some_iff.mp ht
      obtain rfl := Option.some.inj ht
      exact hholds

/-- Whatever the two threads do with their queues, the kernel with a single list of pending packets
can do. -/
theorem threads_refine_kernel {s t : Threads} {es : List ThreadsEvent} (hs : s.pipeline.Initial)
    (hpending : s.kernel.pending = []) (h : run step s es = some t) :
    ∃ es', run Kernel.step s.kernel es' = some t.view := by
  have hview : s.view = s.kernel := by
    rw [view, hs.holds.pending_eq, Pipeline.entering, hs.receiver, List.nil_append, ← hpending]
  rw [← hview]
  exact run_simulation (I := fun s => ∃ l, s.pipeline.Holds l) view
    (fun s e t h ht => step_holds h ht) (fun s e t h ht => step_simulates h ht)
    ⟨[], hs.holds⟩ h

end Threads

end ITCP
