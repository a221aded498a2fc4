import Akaris.Lib.BsdList
import Akaris.Lib.Prog

/-!
# The scheduler

`common/scheduler.c`: a thread is put on one of two lists by the state it has when it is added, and
`reschedule` picks whatever heads the list of runnable threads.  The `state` field of a thread is
written directly by other code, at any time.

`Scheduler` is a `struct scheduler` with the threads in memory, by address; a thread links itself
into the lists through its field `threads`.
-/

namespace Akaris

/-- The values of `thread_state`. -/
inductive ThreadState
  | init
  | runnable
  | sleeping
  | blocked
  | stopped
  deriving DecidableEq, Repr

/-- The values of `scheduler_err_t` other than `SCHED_SUCCESS`, which is `Except.ok`. -/
inductive SchedulerErr
  | oom
  | invalid
  | notfound
  deriving DecidableEq, Repr

/-- The failing `assert`s of `common_scheduler_thread_add`. -/
inductive SchedulerFault
  /-- `assert(t != NULL)`. -/
  | assertThread
  /-- `assert(t->space != NULL)`. -/
  | assertSpace
  deriving DecidableEq, Repr

/-- A `struct thread`, without its links. -/
structure Thread where
  space : ℕ
  state : ThreadState
  deriving DecidableEq, Repr

/-- The list heads of a scheduler. -/
inductive ThreadQueue
  | runnable
  | waiting
  deriving DecidableEq, Repr

/-- A `struct scheduler`, the threads in memory and the links between them. -/
structure Scheduler where
  links : BsdList.Links ThreadQueue ℕ
  current : Option ℕ
  thread : ℕ → Thread

/-- Scheduler code. -/
abbrev SchedulerProg (α : Type) := Prog SchedulerFault Scheduler α

/-- `LIST_INSERT_HEAD(&s->queue, t, threads)`. -/
def Scheduler.insertHead (s : Scheduler) (queue : ThreadQueue) (t : ℕ) : Scheduler :=
  { s with links := s.links.insertHead queue t }

/-- The assignment `t->state = state`. -/
def Scheduler.setState (s : Scheduler) (t : ℕ) (state : ThreadState) : Scheduler :=
  { s with thread := Function.update s.thread t { s.thread t with state := state } }

/-- `common_scheduler_reschedule`. -/
def commonSchedulerReschedule : SchedulerProg (Except SchedulerErr Unit) := do
  Prog.update fun s => { s with current := s.links.lhFirst .runnable }
  return .ok ()

/-- `common_scheduler_thread_add`. -/
def commonSchedulerThreadAdd (t : ℕ) : SchedulerProg (Except SchedulerErr Unit) := do
  Prog.assert (t ≠ 0) .assertThread
  let thread ← Prog.gets fun s => s.thread t
  Prog.assert (thread.space ≠ 0) .assertSpace
  match thread.state with
  | .runnable =>
      Prog.update fun s => s.insertHead .runnable t
      return .ok ()
  | .sleeping | .blocked | .stopped =>
      Prog.update fun s => s.insertHead .waiting t
      return .ok ()
  | .init => return .error .invalid

end Akaris
