import ITCP.Model.WaitLoops
import ITCP.Proofs.States

/-!
# Wake-ups of the socket calls

A packet that makes the predicate of a wait loop true is followed by the notification of that loop.
The notification reaches the threads that are blocked by then. A thread that has found the
predicate false and has not blocked yet is missed, because the mutex it holds does not keep the
processing thread out; without such a thread no wake-up is lost.
-/

namespace ITCP
open Lib

variable {s t : MySocket} {p : Segment} {tmp : UInt8} {out : List Segment} {l : WaitLoop}

lemma recvAck_sizep (h : s.recvAck p = some (t, out)) : t.sizep = s.sizep := by
  obtain ⟨-, rfl, -⟩ | ⟨-, rfl, -⟩ := recvAck_eq_some h <;> rfl

/-- The data branch moves `sizep` only when it notifies the readers. -/
lemma recvData_sizep (h : s.recvData p tmp = some (t, out)) :
    t.sizep = s.sizep ∨ p.seq + UInt32.ofNat p.payload.length > u32 s.sizep := by
  obtain ⟨databuf, -, rfl, -⟩ := recvData_eq_some h
  by_cases hlen : p.seq + UInt32.ofNat p.payload.length > u32 s.sizep
  · exact Or.inr hlen
  · exact Or.inl (if_neg hlen)

/-- Data transfer leaves the three flags alone. -/
lemma ready_of_sameState (h : SameState s t) (hsize : t.sizep = s.sizep) :
    l.ready t = l.ready s := by
  cases l <;> simp [WaitLoop.ready, h.connReady, h.accSynReady, h.accAckReady, hsize]

lemma ready_recvData (h : s.recvData p tmp = some (t, out)) (hs : ¬l.ready s) (ht : l.ready t) :
    p.seq + UInt32.ofNat p.payload.length > u32 s.sizep ∧ l.cv = .read := by
  have hsame := recvData_sameState h
  rcases recvData_sizep h with hsize | hlen
  · rw [ready_of_sameState hsame hsize] at ht
    exact absurd ht hs
  · refine ⟨hlen, ?_⟩
    cases l with
    | conn => exact absurd (hsame.connReady.symm.trans ht) hs
    | accSyn => exact absurd (hsame.accSynReady.symm.trans ht) hs
    | accAck => exact absurd (hsame.accAckReady.symm.trans ht) hs
    | read => rfl

lemma ready_setStatus (s : MySocket) (x : Status) : l.ready (s.setStatus x) = l.ready s := by
  cases l <;> rfl

lemma ready_located (s : MySocket) (p : Segment) : l.ready (s.located p) = l.ready s := by
  unfold MySocket.located
  split_ifs
  · cases l <;> rfl
  · rfl

/-- A packet that makes the predicate of a loop true is followed by the notification of the loop. -/
lemma notifies_of_ready (h : s.readIPPacket p tmp = some (t, out)) (hs : ¬l.ready s)
    (ht : l.ready t) : s.notifies p = some l.cv := by
  have hs' : ¬l.ready (s.located p) := by rwa [ready_located]
  have hmoved : ∀ x, ¬l.ready ((s.located p).setStatus x) := fun x => by rwa [ready_setStatus]
  unfold MySocket.notifies
  rw [← s.located_tcb p, ← s.located_sizep p]
  generalize hr : s.located p = r at hs' hmoved ⊢
  have hreads := MySocket.readIPPacket_reads h
  rw [hr] at hreads
  cases hreads with
  | synAck hsyn hack hst =>
    simp only [hsyn, hack, hst, Bool.and_self, if_true]
    cases l with
    | conn => rfl
    | accSyn | accAck | read => exact absurd ht hs'
  | syn hsyn hst =>
    rw [Segment.isSynOnly, Bool.and_eq_true] at hsyn
    rw [if_neg (by simp_all), if_pos (by simp [hsyn]), if_pos hst]
    cases l with
    | accSyn => rfl
    | conn | accAck | read => exact absurd ht hs'
  | crossing => exact absurd ht (hmoved _)
  | fin => exact absurd ht (hmoved _)
  | accAck hsyn hfin hack hst =>
    simp only [hsyn, hfin, hack, hst, Bool.false_and, Bool.false_eq_true, if_false, if_true]
    cases l with
    | accAck => rfl
    | conn | accSyn | read => exact absurd ht hs'
  | ack => exact absurd ht (hmoved _)
  | data hsyn hfin hack t out hread =>
    unfold MySocket.recvTCPPacket at hread
    simp only [hsyn, hfin, Bool.false_and, Bool.false_eq_true, if_false]
    split_ifs at hread with hisAck
    · rw [ready_of_sameState (recvAck_sameState hread) (recvAck_sizep hread)] at ht
      exact absurd ht hs'
    · obtain ⟨hlen, hl⟩ := ready_recvData hread hs' ht
      rw [if_neg hisAck, if_pos hlen, hl]
  | ignored => exact absurd ht hs'

/-- A thread that a notification leaves blocked, or before its block, was there already, and is not
blocked at the condition that is notified. -/
lemma Caller.notified_eq {x : Cv} {c : Caller} {phase : Phase} (hphase : phase = .wait ∨ phase = .block)
    (h : c.notified x = .inside l phase) : c = .inside l phase ∧ (phase = .wait → l.cv ≠ x) := by
  cases c with
  | idle => cases h
  | inside l' phase' =>
    by_cases hwait : phase' = .wait
    · subst hwait
      simp only [Caller.notified, Caller.inside.injEq] at h
      obtain ⟨rfl, h⟩ := h
      split_ifs at h with hx
      · subst h
        exact absurd hphase (by decide)
      · subst h
        exact ⟨rfl, fun _ => hx⟩
    · have hsame : Caller.notified x (.inside l' phase') = .inside l' phase' := by
        cases phase' <;> first | rfl | exact absurd rfl hwait
      rw [hsame] at h
      obtain ⟨rfl, rfl⟩ := Caller.inside.inj h
      exact ⟨rfl, fun h => absurd h hwait⟩

def WaitersEvent.isNotifyAll : WaitersEvent → Bool
  | .notifyAll => true
  | _ => false

namespace Waiters

variable {w w' : Waiters} {i : ℕ}

/-- A thread is blocked and has not been notified, although its predicate is true and the
notification is not about to be issued. -/
def Missed (w : Waiters) : Prop :=
  ∃ l, .inside l .wait ∈ w.callers ∧ l.ready w.sock ∧ w.pending ≠ some l.cv

/-- A thread that has found the predicate of the notified condition false, has not blocked yet, and
would find it true now. -/
def between (w : Waiters) : Caller → Bool
  | .inside l .block => w.pending == some l.cv && l.ready w.sock
  | _ => false

/-- The condition on a step: a notification finds no thread between its test and its block whose
predicate has become true. -/
def Safe (w : Waiters) (e : WaitersEvent) : Prop :=
  e.isNotifyAll → ∀ c ∈ w.callers, ¬w.between c

instance (w : Waiters) (e : WaitersEvent) : Decidable (Safe w e) :=
  inferInstanceAs (Decidable (_ → _))

/-- A thread that has found its predicate false, and not been notified since, finds it true only
while the notification is about to be issued. -/
def Covered (w : Waiters) : Prop :=
  ∀ l phase, .inside l phase ∈ w.callers → phase = .wait ∨ phase = .block → l.ready w.sock →
    w.pending = some l.cv

lemma Covered.congr (h : Covered w) (hcallers : w'.callers = w.callers)
    (hpending : w'.pending = w.pending)
    (hready : ∀ l : WaitLoop, l.ready w'.sock = l.ready w.sock) : Covered w' := by
  intro l phase hmem hphase hl
  rw [hcallers] at hmem
  rw [hready] at hl
  exact hpending.trans (h l phase hmem hphase hl)

lemma Covered.setCaller {c : Caller} (h : Covered w)
    (hc : ∀ l phase, c = .inside l phase → phase = .wait ∨ phase = .block → l.ready w.sock →
      w.pending = some l.cv) : Covered (w.setCaller i c) := by
  intro l phase hmem hphase hl
  rcases List.mem_or_eq_of_mem_set hmem with hmem | rfl
  · exact h l phase hmem hphase hl
  · exact hc l phase rfl hphase hl

/-- A thread that moves to a phase other than the two in question changes nothing for the others. -/
lemma Covered.setCaller_of_ne {l : WaitLoop} {phase : Phase} (h : Covered w)
    (hphase : phase ≠ .wait ∧ phase ≠ .block) : Covered (w.setCaller i (.inside l phase)) := by
  refine h.setCaller (fun l' phase' hc hphase' _ => ?_)
  obtain ⟨-, rfl⟩ := Caller.inside.inj hc
  exact absurd hphase' (not_or.mpr hphase)

lemma Covered.setIdle (h : Covered w) : Covered (w.setCaller i .idle) :=
  h.setCaller nofun

lemma Covered.release (h : Covered w) (x : Cv) : Covered (w.release x) :=
  h.congr rfl rfl (fun _ => rfl)

lemma Covered.acquire {x : Cv} (h : Covered w) (hw : w.acquire x i = some w') : Covered w' := by
  unfold Waiters.acquire at hw
  split_ifs at hw
  obtain rfl := Option.some.inj hw
  exact h.congr rfl rfl (fun _ => rfl)

lemma Covered.finish (h : Covered w) (hw : w.finish i l = some w') : Covered w' := by
  cases l with
  | conn =>
    obtain rfl := Option.some.inj hw
    exact h.setIdle.release _
  | accSyn =>
    obtain rfl := Option.some.inj hw
    exact h.setCaller_of_ne ⟨nofun, nofun⟩
  | accAck =>
    obtain rfl := Option.some.inj hw
    exact (h.setIdle.release _).release _
  | read pastread len =>
    simp only [Waiters.finish] at hw
    split_ifs at hw
    obtain ⟨⟨buf, sock⟩, hread, hw⟩ := Option.bind_eq_some_iff.mp hw
    obtain rfl := Option.some.inj hw
    obtain ⟨buf', -, hread⟩ := Option.bind_eq_some_iff.mp hread
    cases hread
    have hsock : Covered { w with sock := { w.sock with readp := w.sock.readp + len } } :=
      h.congr rfl rfl (fun l => by cases l <;> rfl)
    exact hsock.setIdle.release .read

/-- The step in question: what a packet makes true is about to be notified. -/
lemma Covered.process (h : Covered w) (hw : w.step (.process p tmp) = some w') : Covered w' := by
  simp only [step] at hw
  split_ifs at hw with hpending
  obtain ⟨⟨sock, out⟩, hread, hw⟩ := Option.bind_eq_some_iff.mp hw
  obtain rfl := Option.some.inj hw
  intro l phase hmem hphase hl
  refine notifies_of_ready hread (fun hready => hpending ?_) hl
  rw [h l phase hmem hphase hready]
  rfl

/-- A notification reaches the blocked threads, and the condition is about the others. -/
lemma Covered.notifyAll (h : Covered w) (hsafe : Safe w .notifyAll)
    (hw : w.step .notifyAll = some w') : Covered w' := by
  obtain ⟨x, hx, hw⟩ := Option.bind_eq_some_iff.mp hw
  obtain rfl := Option.some.inj hw
  intro l phase hmem hphase hl
  obtain ⟨c, hc, heq⟩ := List.mem_map.mp hmem
  obtain ⟨rfl, hne⟩ := Caller.notified_eq hphase heq
  have hcv : l.cv = x := (Option.some.inj ((h l phase hc hphase hl).symm.trans hx))
  rcases hphase with rfl | rfl
  · exact absurd hcv (hne rfl)
  · exact absurd (by simp [between, hx, hcv, hl]) (hsafe rfl _ hc)

lemma Covered.step {e : WaitersEvent} (h : Covered w) (hsafe : Safe w e)
    (hw : w.step e = some w') : Covered w' := by
  cases e with
  | connect i address tmp =>
    simp only [Waiters.step] at hw
    split at hw
    · obtain rfl := Option.some.inj hw
      refine Covered.setCaller_of_ne (h.congr rfl rfl (fun l => ?_)) ⟨nofun, nofun⟩
      cases l <;> rfl
    · cases hw
  | accept i =>
    simp only [Waiters.step] at hw
    split at hw
    · obtain rfl := Option.some.inj hw
      exact h.setCaller_of_ne ⟨nofun, nofun⟩
    · cases hw
  | read i nbyte =>
    simp only [Waiters.step] at hw
    split at hw
    · split_ifs at hw
      obtain rfl := Option.some.inj hw
      exact h.setCaller_of_ne ⟨nofun, nofun⟩
    · cases hw
  | lock i =>
    simp only [Waiters.step] at hw
    have htest : ∀ l, Covered (w.setCaller i (.inside l .test)) := fun l =>
      h.setCaller_of_ne ⟨nofun, nofun⟩
    split at hw
    · exact (htest _).acquire hw
    · exact (htest _).acquire hw
    · cases hw
  | test i =>
    simp only [Waiters.step] at hw
    split at hw
    · obtain rfl := Option.some.inj hw
      refine h.setCaller (fun l phase hc hphase hl => ?_)
      obtain ⟨rfl, rfl⟩ := Caller.inside.inj hc
      rw [if_pos hl] at hphase
      exact absurd hphase (by decide)
    · cases hw
  | block i =>
    simp only [Waiters.step] at hw
    split at hw
    · rename_i l hi
      obtain rfl := Option.some.inj hw
      refine Covered.release (h.setCaller (fun l' phase hc hphase hl => ?_)) _
      obtain ⟨rfl, rfl⟩ := Caller.inside.inj hc
      exact h l .block (List.mem_of_getElem? hi) (Or.inr rfl) hl
    · cases hw
  | wakeup i =>
    simp only [Waiters.step] at hw
    split at hw
    · obtain rfl := Option.some.inj hw
      exact h.setCaller_of_ne ⟨nofun, nofun⟩
    · cases hw
  | leave i =>
    simp only [Waiters.step] at hw
    split at hw
    · exact h.finish hw
    · cases hw
  | process p tmp => exact h.process hw
  | notifyAll => exact h.notifyAll hsafe hw

/-- No thread is inside a call, and no notification is under way. -/
structure Initial (w : Waiters) : Prop where
  callers : ∀ c ∈ w.callers, c = .idle
  mutex : ∀ x, w.mutex x = none
  pending : w.pending = none

lemma Initial.covered (h : Initial w) : Covered w := by
  intro l phase hmem
  cases h.callers _ hmem

lemma Covered.not_missed (h : Covered w) : ¬Missed w := by
  rintro ⟨l, hmem, hl, hpending⟩
  exact hpending (h l .wait hmem (Or.inl rfl) hl)

/-- A thread that is missed by a notification blocks for good. -/
lemma missed_of_not_safe (hsafe : ¬Safe w .notifyAll) (hw : w.step .notifyAll = some w') :
    ∃ i v, w'.step (.block i) = some v ∧ Missed v := by
  simp only [Safe, WaitersEvent.isNotifyAll, true_implies, not_forall, not_not] at hsafe
  obtain ⟨c, hc, hbetween⟩ := hsafe
  obtain ⟨x, hx, hw⟩ := Option.bind_eq_some_iff.mp hw
  obtain rfl := Option.some.inj hw
  unfold between at hbetween
  split at hbetween
  · rename_i l
    obtain ⟨-, hl⟩ := Bool.and_eq_true_iff.mp hbetween
    obtain ⟨i, hi⟩ := List.mem_iff_getElem?.mp hc
    have hi' : (w.callers.map (Caller.notified x))[i]? = some (.inside l .block) := by
      rw [List.getElem?_map, hi]
      rfl
    have hblock : step { w with callers := w.callers.map (Caller.notified x), pending := none }
        (.block i) = some ((setCaller { w with
          callers := w.callers.map (Caller.notified x), pending := none } i
            (.inside l .wait)).release l.cv) := by
      simp only [Waiters.step, hi']
    refine ⟨i, _, hblock, l, ?_, hl, nofun⟩
    exact List.mem_set (List.getElem?_eq_some_iff.mp hi').1 _
  · cases hbetween

/-- In every run whose notifications find no thread between its test and its block with a predicate
that has become true, no thread is blocked although its predicate is true and the notification has
been issued. Any notification that does find one can lead to such a thread. -/
theorem waiting_threads_notified (hw : Initial w) :
    (∀ es t, run (restrict Safe step) w es = some t → ¬Missed t) ∧
    ∀ es t u, run step w es = some t → t.step .notifyAll = some u → ¬Safe t .notifyAll →
      ∃ i v, u.step (.block i) = some v ∧ Missed v := by
  refine ⟨fun es t h => ?_, fun es t u _ hu hsafe => missed_of_not_safe hsafe hu⟩
  refine Covered.not_missed (run_invariant (I := Covered) (fun s e t hs ht => ?_) hw.covered h)
  obtain ⟨hsafe, ht⟩ := restrict_eq_some.mp ht
  exact hs.step hsafe ht

/-- One thread and a socket that it is about to connect. -/
def oneThread : Waiters where
  sock := .create default false
  callers := [.idle]
  mutex := fun _ => none
  pending := none

lemma oneThread_initial : Initial oneThread where
  callers _ hc := List.mem_singleton.mp hc
  mutex _ := rfl
  pending := rfl

def serverAddress : Tuple4 := ⟨1, 2, 3, 4⟩

/-- The answer to the SYN of `connect`. -/
def serverAnswer : Segment := ⟨serverAddress.mirror, 0, 1, setAck (setSyn 0), [0]⟩

/-- When the answer is notified after `connect` has blocked, `connect` wakes up and returns. -/
theorem waiting_threads_notified_connect : ∃ t, run (restrict Safe step) oneThread
    [.connect 0 serverAddress 0, .lock 0, .test 0, .block 0, .process serverAnswer 0, .notifyAll,
      .lock 0, .test 0, .leave 0] = some t ∧
    t.callers = [.idle] ∧ t.sock.tcb.status = .estab ∧ ¬Missed t := by
  have h : run (restrict Safe step) oneThread
      [.connect 0 serverAddress 0, .lock 0, .test 0, .block 0, .process serverAnswer 0, .notifyAll,
        .lock 0, .test 0, .leave 0] = some _ := rfl
  exact ⟨_, h, rfl, rfl, (waiting_threads_notified oneThread_initial).1 _ _ h⟩

/-- The answer arrives after the test of `connect`, and is notified before `connect` blocks. -/
theorem waiting_threads_missed : ¬∀ w es t, Initial w → run step w es = some t → ¬Missed t := by
  intro h
  exact h oneThread [.connect 0 serverAddress 0, .lock 0, .test 0, .process serverAnswer 0,
    .notifyAll, .block 0] _ oneThread_initial rfl ⟨.conn, List.mem_cons_self, rfl, nofun⟩

end Waiters

end ITCP
