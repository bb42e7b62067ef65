import H750Stepper.Lib.CInt
import H750Stepper.Lib.Inherit
import H750Stepper.Timer.Registry

/-!
# Timers of the kernel

`timer.c` and `rt_tick_increase`: the hard timers behind `rt_thread_mdelay`. The timers that are
running stand in a list in the order of their timeouts; a tick runs those at its head that are due.
A timeout function may start, stop and change any timer, its own included. The skip list has one
level, as configured, so it is a plain list; the interrupts are off while it is changed, so each
function is one step.

Left out: soft timers, which the configuration does not use, the hooks, and the reads of
`rt_timer_control`.
-/

namespace H750Stepper

open CInt

/-- `RT_TICK_MAX / 2` -/
def rtTickHalf : ℕ := (2 ^ 32 - 1) / 2

/-- `struct rt_timer`, less what it calls. -/
structure RtTimer where
  timeoutTick : ℕ
  initTick : ℕ
  activated : Bool
  periodic : Bool
  deriving DecidableEq

/-- `_timer_init` -/
def RtTimer.init (time : ℕ) (periodic : Bool) : RtTimer where
  timeoutTick := 0
  initTick := time
  activated := false
  periodic := periodic

/-- The timers: `_timer_list`, and the list of `_timer_check` for the timer whose function runs.
The ticks are counted on; the word of `rt_tick` is `rtTickGet`. -/
structure TimerSys (ι : Type) where
  tick : ℕ
  timerList : List ι
  called : List ι
  timer : ι → RtTimer

namespace TimerSys

variable {ι : Type} [DecidableEq ι]

/-- No timer has been started; the tick counter may stand anywhere. -/
def boot (tick : ℕ) (timer : ι → RtTimer) : TimerSys ι where
  tick := tick
  timerList := []
  called := []
  timer := timer

/-- `rt_tick_get` -/
def rtTickGet (s : TimerSys ι) : ℕ := s.tick % 2 ^ 32

/-- Write a timer. -/
def modify (t : ι) (f : RtTimer → RtTimer) (s : TimerSys ι) : TimerSys ι :=
  { s with timer := Function.update s.timer t (f (s.timer t)) }

/-- `_timer_remove`: from the list it stands in, if any. -/
def timerRemove (t : ι) (s : TimerSys ι) : TimerSys ι :=
  { s with timerList := s.timerList.erase t, called := s.called.erase t }

/-- The insertion of `_timer_start`: behind the timers that time out at the same tick or before. -/
def insertTimer (s : TimerSys ι) (t : ι) : List ι → List ι
  | [] => [t]
  | p :: ps =>
    let diff := uwrap 32 ((s.timer p).timeoutTick - (s.timer t).timeoutTick)
    if diff = 0 then p :: insertTimer s t ps
    else if diff < rtTickHalf then t :: p :: ps
    else p :: insertTimer s t ps

/-- `_timer_start` -/
def timerStart (t : ι) (s : TimerSys ι) : TimerSys ι :=
  let s := s.timerRemove t
  let timeoutTick := (s.rtTickGet + (s.timer t).initTick) % 2 ^ 32
  let s := s.modify t fun x => { x with activated := false, timeoutTick }
  let s := { s with timerList := s.insertTimer t s.timerList }
  s.modify t fun x => { x with activated := true }

/-- `rt_timer_stop` -/
def rtTimerStop (t : ι) (s : TimerSys ι) : RtErr × TimerSys ι :=
  if (s.timer t).activated then
    (.eOk, (s.timerRemove t).modify t fun x => { x with activated := false })
  else (.eError, s)

/-- `rt_timer_detach` and `rt_timer_delete` -/
def rtTimerDetach (t : ι) (s : TimerSys ι) : TimerSys ι :=
  (s.timerRemove t).modify t fun x => { x with activated := false }

/-- `rt_timer_control` with `RT_TIMER_CTRL_SET_TIME` -/
def setTime (t : ι) (time : ℕ) (s : TimerSys ι) : TimerSys ι :=
  let s := if (s.timer t).activated then
      (s.timerRemove t).modify t fun x => { x with activated := false }
    else s
  s.modify t fun x => { x with initTick := time }

end TimerSys

/-- The calls that change timers. -/
inductive TimerOp (ι : Type) where
  | start (t : ι)
  | stop (t : ι)
  | detach (t : ι)
  | setTime (t : ι) (time : ℕ)
  | setPeriodic (t : ι) (on : Bool)
  deriving DecidableEq

/-- The timer that a call is about. -/
def TimerOp.timer {ι : Type} : TimerOp ι → ι
  | .start t | .stop t | .detach t | .setTime t _ | .setPeriodic t _ => t

/-- What a call does. -/
def TimerOp.eff {ι : Type} [DecidableEq ι] : TimerOp ι → TimerSys ι → TimerSys ι
  | .start t, s => s.timerStart t
  | .stop t, s => (s.rtTimerStop t).2
  | .detach t, s => s.rtTimerDetach t
  | .setTime t time, s => s.setTime t time
  | .setPeriodic t on, s => s.modify t fun x => { x with periodic := on }

/-- What the timeout function of a timer calls, in the state it finds. -/
abbrev TimeoutFunc (ι : Type) := ι → TimerSys ι → List (TimerOp ι)

namespace TimerSys

variable {ι : Type} [DecidableEq ι] (func : TimeoutFunc ι)

/-- The timer at the head of the list, if it is due. -/
def due (s : TimerSys ι) : Option ι :=
  match s.timerList with
  | [] => none
  | t :: _ =>
    if uwrap 32 ((s.rtTickGet : ℤ) - (s.timer t).timeoutTick) < rtTickHalf then some t else none

/-- The part of a round of `_timer_check` before the timeout function. -/
def take (t : ι) (s : TimerSys ι) : TimerSys ι :=
  let s := (s.timerRemove t).modify t fun x =>
    { x with activated := if x.periodic then x.activated else false }
  { s with called := t :: s.called }

/-- The part after it. -/
def giveBack (t : ι) (s : TimerSys ι) : TimerSys ι :=
  if s.called = [] then s
  else
    let s := { s with called := s.called.erase t }
    if (s.timer t).periodic ∧ (s.timer t).activated then s.timerStart t else s

/-- One round of `_timer_check` for a timer that is due. -/
def callTimer (t : ι) (s : TimerSys ι) : TimerSys ι :=
  ((func t (s.take t)).foldl (fun s op => op.eff s) (s.take t)).giveBack t

/-- `_timer_check`, observed for at most `rounds` rounds of its loop: `none` when it still runs;
otherwise the state it leaves and the timers it has called. -/
def timerCheck : ℕ → TimerSys ι → Option (TimerSys ι × List ι)
  | 0, s => match s.due with
    | none => some (s, [])
    | some _ => none
  | rounds + 1, s => match s.due with
    | none => some (s, [])
    | some t => (timerCheck rounds (s.callTimer func t)).map fun r => (r.1, t :: r.2)

/-- `rt_tick_increase`, as far as the timers go. -/
def rtTickIncrease (rounds : ℕ) (s : TimerSys ι) : Option (TimerSys ι × List ι) :=
  timerCheck func rounds { s with tick := s.tick + 1 }

end TimerSys

/-- What happens: a call by a thread, or a tick, in which the timeout functions do as they like. -/
inductive TimerEvent (ι : Type) where
  | op (op : TimerOp ι)
  | tick (func : TimeoutFunc ι)

namespace TimerSys

variable {ι : Type} [DecidableEq ι]

/-- The state after a run, and the timers called. -/
def run (rounds : ℕ) : TimerSys ι → List (TimerEvent ι) → Option (TimerSys ι × List ι)
  | s, [] => some (s, [])
  | s, .op op :: es => run rounds (op.eff s) es
  | s, .tick func :: es =>
    (s.rtTickIncrease func rounds).bind fun r =>
      (run rounds r.1 es).map fun r' => (r'.1, r.2 ++ r'.2)

end TimerSys

end H750Stepper
