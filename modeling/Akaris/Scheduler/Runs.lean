import Akaris.Scheduler.Defs

/-!
# Which thread the scheduler picks

Threads are added, change state and are rescheduled in any order.  A thread stays on the list that
its state chose when it was added, so the list of runnable threads is the list of threads *added*
as runnable, `SchedulerRun.ready`, the latest first: that is the invariant `Queued`.

**`picks_runnable_iff`** — a reschedule picks a runnable thread, and none only when there is none,
exactly when the thread last added as runnable still is, or no thread was added as runnable and
none became so since.
-/

namespace Akaris

open BsdList

/-- A run of a scheduler: its memory, the threads that were added, and those of them that were
`THREAD_RUNNABLE` then, the latest first. -/
structure SchedulerRun where
  s : Scheduler
  added : List ℕ
  ready : List ℕ

/-- The effect of a successful `thread_add`. -/
def SchedulerRun.add (r : SchedulerRun) (t : ℕ) (s' : Scheduler) : SchedulerRun where
  s := s'
  added := t :: r.added
  ready := if (r.s.thread t).state = .runnable then t :: r.ready else r.ready

/-- One step of a run.  No thread is added twice; a refused thread was not added. -/
inductive SchedulerStep : SchedulerRun → SchedulerRun → Prop
  | add {r : SchedulerRun} {t : ℕ} {s' : Scheduler} : t ∉ r.added →
      (commonSchedulerThreadAdd t).run r.s = .ok (.ok (), s') → SchedulerStep r (r.add t s')
  | addRefused {r : SchedulerRun} {t : ℕ} {e : SchedulerErr} {s' : Scheduler} : t ∉ r.added →
      (commonSchedulerThreadAdd t).run r.s = .ok (.error e, s') →
      SchedulerStep r { r with s := s' }
  | setState {r : SchedulerRun} (t : ℕ) (state : ThreadState) :
      SchedulerStep r { r with s := r.s.setState t state }
  | reschedule {r : SchedulerRun} {res : Except SchedulerErr Unit} {s' : Scheduler} :
      commonSchedulerReschedule.run r.s = .ok (res, s') → SchedulerStep r { r with s := s' }

/-- A scheduler with empty lists. -/
def SchedulerInit (r : SchedulerRun) : Prop :=
  (∀ queue, r.s.links.lhFirst queue = none) ∧ r.added = [] ∧ r.ready = []

/-- The states of a scheduler. -/
def SchedulerReachable : SchedulerRun → Prop := Reachable SchedulerInit SchedulerStep

/-! ## The invariant -/

/-- The two lists, of `ready` threads and of the rest, hold what was added. -/
structure Queued (r : SchedulerRun) (rest : List ℕ) : Prop where
  runnable : Chain r.s.links (.first .runnable) r.ready
  waiting : Chain r.s.links (.first .waiting) rest
  perm : (r.ready ++ rest).Perm r.added
  nodup : r.added.Nodup

section Invariant

variable {r r' : SchedulerRun} {rest : List ℕ} {t : ℕ}

lemma commonSchedulerReschedule_run (s : Scheduler) :
    commonSchedulerReschedule.run s
      = .ok (.ok (), { s with current := s.links.lhFirst .runnable }) := rfl

/-- `thread_add` puts a thread at the head of a list, unless its state is `THREAD_INIT`. -/
lemma commonSchedulerThreadAdd_wp (t : ℕ) (s : Scheduler) :
    Prog.wp (commonSchedulerThreadAdd t)
      (fun res s' => match res with
        | .ok _ => s' = s.insertHead
            (if (s.thread t).state = .runnable then .runnable else .waiting) t
        | .error _ => s' = s)
      (fun _ => True) s := by
  simp only [commonSchedulerThreadAdd, Prog.wp_bind, Prog.wp_assert, Prog.wp_gets]
  refine ⟨fun _ => ⟨fun _ => ?_, fun _ => trivial⟩, fun _ => trivial⟩
  cases (s.thread t).state <;>
    simp only [Prog.wp_bind, Prog.wp_update, Prog.wp_pure, reduceCtorEq, if_true, if_false]

lemma Queued.init (h : SchedulerInit r) : Queued r [] := by
  rcases h with ⟨hfirst, hadded, hready⟩
  refine ⟨?_, hfirst .waiting, ?_, ?_⟩
  · rw [hready]
    exact hfirst .runnable
  · rw [hready, hadded]
    exact List.Perm.refl _
  · rw [hadded]
    exact List.nodup_nil

lemma Queued.all_nodup (h : Queued r rest) : (r.ready ++ rest).Nodup :=
  h.perm.nodup_iff.mpr h.nodup

/-- A new thread joins the list its state chooses, and the other list stays as it is. -/
lemma Queued.add (h : Queued r rest) (ht : t ∉ r.added) :
    ∃ rest', Queued (r.add t (r.s.insertHead
      (if (r.s.thread t).state = .runnable then .runnable else .waiting) t)) rest' := by
  have hnd := List.nodup_append.mp h.all_nodup
  have hnot : t ∉ r.ready ++ rest := fun hmem => ht (h.perm.mem_iff.mp hmem)
  rw [List.mem_append, not_or] at hnot
  have hnodup : (t :: r.added).Nodup := List.nodup_cons.mpr ⟨ht, h.nodup⟩
  by_cases hstate : (r.s.thread t).state = .runnable
  · refine ⟨rest, ?_, ?_, ?_, hnodup⟩ <;>
      simp only [SchedulerRun.add, Scheduler.insertHead, if_pos hstate]
    · exact h.runnable.insertHead hnd.1 hnot.1
    · refine h.waiting.insertHead_frame (by decide) hnot.2 fun y hy hyrest => ?_
      have hyhead : r.ready.head? = some y := h.runnable.read_eq.symm.trans hy
      exact hnd.2.2 y (List.mem_of_mem_head? hyhead) y hyrest rfl
    · exact h.perm.cons t
  · refine ⟨t :: rest, ?_, ?_, ?_, hnodup⟩ <;>
      simp only [SchedulerRun.add, Scheduler.insertHead, if_neg hstate]
    · refine h.runnable.insertHead_frame (by decide) hnot.1 fun y hy hyready => ?_
      have hyhead : rest.head? = some y := h.waiting.read_eq.symm.trans hy
      exact hnd.2.2 y hyready y (List.mem_of_mem_head? hyhead) rfl
    · exact h.waiting.insertHead hnd.2.1 hnot.2
    · exact List.perm_middle.trans (h.perm.cons t)

/-- **Every step keeps the lists.** -/
lemma Queued.step (h : Queued r rest) (hs : SchedulerStep r r') : ∃ rest', Queued r' rest' := by
  cases hs with
  | @add t s' ht hrun =>
      have hs' := Prog.wp_run (commonSchedulerThreadAdd_wp t r.s) hrun
      subst hs'
      exact h.add ht
  | @addRefused t e s' ht hrun =>
      have hs' := Prog.wp_run (commonSchedulerThreadAdd_wp t r.s) hrun
      subst hs'
      exact ⟨rest, h⟩
  | setState t state => exact ⟨rest, h.runnable, h.waiting, h.perm, h.nodup⟩
  | reschedule hrun =>
      rw [commonSchedulerReschedule_run, Except.ok.injEq, Prod.mk.injEq] at hrun
      rcases hrun with ⟨-, rfl⟩
      exact ⟨rest, h.runnable, h.waiting, h.perm, h.nodup⟩

theorem SchedulerReachable.queued (hr : SchedulerReachable r) : ∃ rest, Queued r rest :=
  Reachable.invariant (I := fun r => ∃ rest, Queued r rest) (fun _ h => ⟨[], Queued.init h⟩)
    (fun _ _ h hs => h.elim fun _ h => h.step hs) hr

end Invariant

/-! ## The pick -/

/-- The scheduler runs a thread that was added and is `THREAD_RUNNABLE`, and runs none only when no
thread that was added is. -/
def PicksRunnable (added : List ℕ) (s : Scheduler) : Prop :=
  (∀ t, s.current = some t → t ∈ added ∧ (s.thread t).state = .runnable) ∧
    (s.current = none ↔ ∀ t ∈ added, (s.thread t).state ≠ .runnable)

/-- The thread last added as runnable is still runnable; or there is none, and no thread that was
added became runnable since. -/
def HeadRunnable (r : SchedulerRun) : Prop :=
  match r.ready with
  | t :: _ => (r.s.thread t).state = .runnable
  | [] => ∀ t ∈ r.added, (r.s.thread t).state ≠ .runnable

/-- **When the scheduler picks a runnable thread.**  In every state of every run a reschedule
succeeds, and right after it the current thread is an added and runnable one, and `NULL` exactly
when no added thread is runnable, if and only if the thread that was last added as runnable still
is, or there is no such thread and no added thread is runnable. -/
theorem picks_runnable_iff {r : SchedulerRun} (hr : SchedulerReachable r) :
    ∃ s', commonSchedulerReschedule.run r.s = .ok (.ok (), s') ∧
      (PicksRunnable r.added s' ↔ HeadRunnable r) := by
  rcases hr.queued with ⟨rest, h⟩
  refine ⟨_, commonSchedulerReschedule_run r.s, ?_⟩
  have hfirst : r.s.links.lhFirst .runnable = r.ready.head? := h.runnable.read_eq
  have hsub : ∀ t ∈ r.ready, t ∈ r.added := fun t ht =>
    h.perm.mem_iff.mp (List.mem_append_left _ ht)
  simp only [PicksRunnable, HeadRunnable, hfirst]
  cases hready : r.ready with
  | nil => simp
  | cons t ts =>
      have ht : t ∈ r.added := hsub t (by rw [hready]; exact List.mem_cons_self)
      constructor
      · intro hpick
        exact (hpick.1 t rfl).2
      · intro hstate
        refine ⟨?_, ?_⟩
        · intro u hu
          obtain rfl := Option.some.inj hu
          exact ⟨ht, hstate⟩
        · refine iff_of_false (by simp) fun hnone => hnone t ht hstate

/-- A scheduler with empty lists over threads that are all runnable. -/
def emptyScheduler : SchedulerRun where
  s := {
    links := { lhFirst := fun _ => none, leNext := fun _ => none, lePrev := fun _ => .first .waiting }
    current := none
    thread := fun _ => ⟨1, .runnable⟩ }
  added := []
  ready := []

/-- The same after thread 1 was added. -/
def oneThread : SchedulerRun :=
  emptyScheduler.add 1 (Prog.after (commonSchedulerThreadAdd 1) emptyScheduler.s)

lemma oneThread_reachable : SchedulerReachable oneThread := by
  have h₀ : SchedulerReachable emptyScheduler := .base ⟨fun _ => rfl, rfl, rfl⟩
  exact h₀.tail (.add (by simp [emptyScheduler]) (Prog.run_after rfl))

/-- Three threads, the second of which is blocked when it is added: the third is picked. -/
theorem picks_runnable_three : ∃ r s', SchedulerReachable r ∧ r.added = [3, 2, 1] ∧
    (r.s.thread 2).state = .blocked ∧ commonSchedulerReschedule.run r.s = .ok (.ok (), s') ∧
    s'.current = some 3 ∧ PicksRunnable [3, 2, 1] s' := by
  have h₁ := oneThread_reachable.tail (.setState 2 .blocked)
  have h₂ := h₁.tail (.add (t := 2) (by decide) (Prog.run_after rfl))
  have h₃ := h₂.tail (.add (t := 3) (by decide) (Prog.run_after rfl))
  rcases picks_runnable_iff h₃ with ⟨s', hrun, hiff⟩
  have hs' := hrun
  rw [commonSchedulerReschedule_run, Except.ok.injEq, Prod.mk.injEq] at hs'
  rcases hs' with ⟨-, rfl⟩
  exact ⟨_, _, h₃, rfl, rfl, hrun, rfl, hiff.mpr rfl⟩

/-- A thread that was added as runnable and is blocked by now is picked all the same. -/
theorem picks_blocked :
    ¬∀ r : SchedulerRun, SchedulerReachable r → ∀ s',
      commonSchedulerReschedule.run r.s = .ok (.ok (), s') → PicksRunnable r.added s' := by
  intro hall
  have hr := oneThread_reachable.tail (.setState 1 .blocked)
  have hpick := hall _ hr _ (commonSchedulerReschedule_run _)
  exact absurd (hpick.1 1 rfl).2 (by decide)

end Akaris
