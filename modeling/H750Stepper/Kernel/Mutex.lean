import H750Stepper.Lib.Inherit
import H750Stepper.Timer.Registry

/-!
# Mutexes

`ipc.c`: the mutex that protects the sections of the motor driver, with its recursion count and the
inheritance of priorities. Any number of threads and of mutexes; a small number is an urgent
priority. The functions run with the scheduler locked, so each is one step; a thread that has to
wait is resumed by the release that makes it the owner.

Left out: timeouts and `thread->error`, which the driver does not use (it waits forever), and the
ready queue, which decides who runs but not what a mutex does.
-/

namespace H750Stepper

/-- `struct rt_thread`, as far as the mutexes use it. -/
structure RtThread (M : Type) where
  initPriority : ℕ
  currentPriority : ℕ
  takenObjectList : List M
  pendingObject : Option M

/-- `struct rt_mutex` -/
structure RtMutex (T : Type) where
  owner : Option T
  hold : ℕ
  priority : ℕ
  ceilingPriority : ℕ
  suspendThread : List T

/-- `rt_mutex_create` and `rt_mutex_init` -/
def RtMutex.rtMutexCreate {T : Type} : RtMutex T where
  owner := none
  hold := 0
  priority := 0xff
  ceilingPriority := 0xff
  suspendThread := []

/-- `RT_MUTEX_HOLD_MAX` -/
def mutexHoldMax : ℕ := 255

/-- The threads and the mutexes. -/
@[ext] structure MutexSys (T M : Type) where
  thread : T → RtThread M
  mutex : M → RtMutex T

variable {T M : Type} [DecidableEq T] [DecidableEq M]

namespace MutexSys

/-- Write a thread. -/
def setThread (t : T) (x : RtThread M) (s : MutexSys T M) : MutexSys T M :=
  { s with thread := Function.update s.thread t x }

/-- Write a mutex. -/
def setMutex (m : M) (x : RtMutex T) (s : MutexSys T M) : MutexSys T M :=
  { s with mutex := Function.update s.mutex m x }

section Writes

variable {s : MutexSys T M} {t u : T} {m k : M} {x : RtThread M} {y : RtMutex T}

omit [DecidableEq M] in
@[simp] theorem setThread_mutex : (s.setThread t x).mutex = s.mutex := rfl

omit [DecidableEq T] in
@[simp] theorem setMutex_thread : (s.setMutex m y).thread = s.thread := rfl

omit [DecidableEq M] in
@[simp] theorem setThread_thread_self : (s.setThread t x).thread t = x := Function.update_self ..

omit [DecidableEq M] in
theorem setThread_thread_of_ne (h : u ≠ t) : (s.setThread t x).thread u = s.thread u :=
  Function.update_of_ne h ..

omit [DecidableEq T] in
@[simp] theorem setMutex_mutex_self : (s.setMutex m y).mutex m = y := Function.update_self ..

omit [DecidableEq T] in
theorem setMutex_mutex_of_ne (h : k ≠ m) : (s.setMutex m y).mutex k = s.mutex k :=
  Function.update_of_ne h ..

end Writes

variable (s : MutexSys T M)

/-- `rt_sched_thread_get_curr_prio` -/
def currPrio (t : T) : ℕ := (s.thread t).currentPriority

/-- `rt_susp_list_enqueue` with `RT_IPC_FLAG_PRIO`, the flag of every mutex: before the first thread
that is less urgent. -/
def suspListEnqueue (t : T) (q : List T) : List T :=
  q.orderedInsert (fun t u => s.currPrio t < s.currPrio u) t

/-- `_mutex_update_priority` -/
def mutexUpdatePriority (m : M) : MutexSys T M :=
  s.setMutex m { s.mutex m with
    priority := Inherit.first 0xff s.currPrio (s.mutex m).suspendThread }

/-- `_thread_get_mutex_priority` -/
def threadGetMutexPriority (t : T) : ℕ :=
  (s.thread t).takenObjectList.foldl (fun priority m =>
    let mutexPrio := if (s.mutex m).priority < (s.mutex m).ceilingPriority then (s.mutex m).priority
      else (s.mutex m).ceilingPriority
    if priority > mutexPrio then mutexPrio else priority) (s.thread t).initPriority

/-- `rt_sched_thread_change_priority`, less the ready queue -/
def changePriority (t : T) (priority : ℕ) : MutexSys T M :=
  s.setThread t { s.thread t with currentPriority := priority }

/-- The body of the loop of `_thread_update_priority` for a thread that waits for `m`: it goes to its
new place in the queue. -/
def requeue (t : T) (m : M) : MutexSys T M :=
  mutexUpdatePriority (s.setMutex m { s.mutex m with
    suspendThread := s.suspListEnqueue t ((s.mutex m).suspendThread.erase t) }) m

/-- `_thread_update_priority`, for at most `n` rounds of its loop. A thread that is suspended on
something else has no pending object. -/
def threadUpdatePriority : ℕ → T → ℕ → MutexSys T M → MutexSys T M
  | 0, t, priority, s => s.changePriority t priority
  | n + 1, t, priority, s =>
    let s := s.changePriority t priority
    match (s.thread t).pendingObject with
    | none => s
    | some m =>
      let s := s.requeue t m
      match (s.mutex m).owner with
      | none => s
      | some o =>
        let mutexPriority := s.threadGetMutexPriority o
        if mutexPriority ≠ s.currPrio o then threadUpdatePriority n o mutexPriority s else s

/-- `_check_and_update_prio` -/
def checkAndUpdatePrio (t : T) (m : M) : MutexSys T M :=
  if (s.mutex m).ceilingPriority ≠ 0xff ∨ s.currPrio t = (s.mutex m).priority then
    s.changePriority t (s.threadGetMutexPriority t)
  else s

/-- The part of `rt_mutex_release` that wakes up a suspended thread, if there is one, and makes it
the owner. -/
def wakeup (m : M) : MutexSys T M :=
  match (s.mutex m).suspendThread with
  | [] => s.setMutex m { s.mutex m with owner := none, priority := 0xff }
  | next :: rest =>
    let s := s.setMutex m { s.mutex m with owner := some next, hold := 1, suspendThread := rest }
    let s := s.setThread next { s.thread next with
      takenObjectList := m :: (s.thread next).takenObjectList, pendingObject := none }
    s.mutexUpdatePriority m

variable [Fintype T]

/-- `rt_mutex_take` with `RT_WAITING_FOREVER`; without a result if the thread has to wait. The chain
of owners that inherit the priority has each thread at most once. -/
def rtMutexTake (t : T) (m : M) : MutexSys T M × Option RtErr :=
  match (s.mutex m).owner with
  | some o =>
    if o = t then
      if (s.mutex m).hold < mutexHoldMax then
        (s.setMutex m { s.mutex m with hold := (s.mutex m).hold + 1 }, some .eOk)
      else (s, some (.other 3))
    else
      let s := s.setMutex m { s.mutex m with
        suspendThread := s.suspListEnqueue t (s.mutex m).suspendThread }
      let s := s.setThread t { s.thread t with pendingObject := some m }
      let priority := s.currPrio t
      if priority < (s.mutex m).priority then
        let s := s.setMutex m { s.mutex m with priority := priority }
        if priority < s.currPrio o then (threadUpdatePriority (Fintype.card T) o priority s, none)
        else (s, none)
      else (s, none)
  | none =>
    let s := s.setMutex m { s.mutex m with owner := some t, priority := 0xff, hold := 1 }
    let ceiling := (s.mutex m).ceilingPriority
    let s := if ceiling ≠ 0xff ∧ ceiling < s.currPrio t then
        threadUpdatePriority (Fintype.card T) t ceiling s
      else s
    (s.setThread t { s.thread t with takenObjectList := m :: (s.thread t).takenObjectList },
      some .eOk)

/-- `rt_mutex_release` -/
def rtMutexRelease (t : T) (m : M) : MutexSys T M × RtErr :=
  if (s.mutex m).owner ≠ some t then (s, .eError)
  else
    let s := s.setMutex m { s.mutex m with hold := (s.mutex m).hold - 1 }
    if (s.mutex m).hold = 0 then
      let s := s.setThread t { s.thread t with
        takenObjectList := (s.thread t).takenObjectList.erase m }
      ((s.checkAndUpdatePrio t m).wakeup m, .eOk)
    else (s, .eOk)

end MutexSys

end H750Stepper
