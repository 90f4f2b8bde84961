import ITCP.Lib.Condition
import ITCP.Lib.Run
import ITCP.Model.BlockingQueue

/-!
# The queue with its lock

`push` and `pop` of `BlockingQueue` called by any number of threads. A step is what one thread does
from the moment it gets `_mutex` until it releases it: it leaves its wait loop and finishes the
call, or it blocks on the condition of the loop. A thread that has been woken up gets the lock like
any other thread that asks for it.
-/

namespace ITCP
open Lib

structure Monitor (ι α : Type) where
  queue : BlockingQueue α
  /-- The producers in their wait loop, with the values they push. -/
  _not_full : Condition (ι × α)
  /-- The consumers in their wait loop. -/
  _not_empty : Condition ι
  /-- The values pushed and the values returned by `pop`, in the order of the locked sections. -/
  pushed : List α
  popped : List α

/-- The number `k` is the choice of the thread that `notify_one` wakes up. -/
inductive MonitorEvent (ι α : Type)
  | push (i : ι) (e : α) (k : ℕ)
  | pop (i : ι) (k : ℕ)
  | pushNotified (j k : ℕ)
  | popNotified (j k : ℕ)
  | pushSpurious (j k : ℕ)
  | popSpurious (j k : ℕ)
  | wakeupProducer (j : ℕ)
  | wakeupConsumer (j : ℕ)

namespace Monitor

variable {ι α : Type} [Inhabited α]

def new (capacity : ℕ) : Monitor ι α := ⟨.new capacity, .empty, .empty, [], []⟩

/-- `push` from the test of its wait loop on. -/
def push (m : Monitor ι α) (i : ι) (e : α) (k : ℕ) : Option (Monitor ι α) :=
  match m.queue.push e with
  | none => some { m with _not_full := m._not_full.wait (i, e) }
  | some queue => do
    let _not_empty ← m._not_empty.notifyOne k
    some { m with queue := queue, _not_empty := _not_empty, pushed := m.pushed ++ [e] }

/-- `pop` from the test of its wait loop on. -/
def pop (m : Monitor ι α) (i : ι) (k : ℕ) : Option (Monitor ι α) :=
  match m.queue.pop with
  | none => some { m with _not_empty := m._not_empty.wait i }
  | some (res, queue) => do
    let _not_full ← m._not_full.notifyOne k
    some { m with queue := queue, _not_full := _not_full, popped := m.popped ++ [res] }

/-- The threads inside `push` or `pop`. -/
def inside (m : Monitor ι α) : List ι := m._not_full.threads.map Prod.fst ++ m._not_empty.threads

def step [DecidableEq ι] (m : Monitor ι α) : MonitorEvent ι α → Option (Monitor ι α)
  | .push i e k => if i ∈ m.inside then none else m.push i e k
  | .pop i k => if i ∈ m.inside then none else m.pop i k
  | .pushNotified j k => do
    let ((i, e), _not_full) ← m._not_full.retake j
    { m with _not_full := _not_full }.push i e k
  | .popNotified j k => do
    let (i, _not_empty) ← m._not_empty.retake j
    { m with _not_empty := _not_empty }.pop i k
  | .pushSpurious j k => do
    let ((i, e), _not_full) ← m._not_full.retakeSpurious j
    { m with _not_full := _not_full }.push i e k
  | .popSpurious j k => do
    let (i, _not_empty) ← m._not_empty.retakeSpurious j
    { m with _not_empty := _not_empty }.pop i k
  | .wakeupProducer j => do
    let _not_full ← m._not_full.wakeup j
    some { m with _not_full := _not_full }
  | .wakeupConsumer j => do
    let _not_empty ← m._not_empty.wakeup j
    some { m with _not_empty := _not_empty }

end Monitor

end ITCP
