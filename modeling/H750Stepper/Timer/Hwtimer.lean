import H750Stepper.Lib.CInt
import H750Stepper.Lib.Counter
import H750Stepper.Lib.Rounding
import H750Stepper.Timer.Registry

/-!
# The hardware timers

`hwtimer.c`, RT-Thread's device of a hardware timer, on `drv_tim.c`, the driver of the STM32 timers
below it: how a control period becomes a prescaler, a count and a number of overflows of the
counter, and when an overflow calls `rx_indicate`.

Here the rounding decides, so every operation on `float` rounds to 24 digits (`binary32`); the
numbers of this file need neither the least nor the largest exponents. The clock of the timer is a
parameter, and so is whether the HAL starts it. The counter counts the edges of that clock as the
reference manual says (`Counter`); an update event by software raises no interrupt here, since
`timer_init` sets URS.
-/

namespace H750Stepper

open CInt Periodic

/-! ## State -/

/-- `struct rt_hwtimer_info` of a timer that counts up. -/
structure HwtimerInfo where
  maxfreq : ℤ
  minfreq : ℤ
  maxcnt : ℕ

/-- `TIM_DEV_INFO_CONFIG` of the board. -/
def timDevInfo : HwtimerInfo := ⟨1000000, 3000, 0xFFFF⟩

/-- `rt_hwtimer_mode_t` -/
inductive HwtimerMode where
  | oneshot | period
  deriving DecidableEq

/-- `rt_hwtimerval_t` -/
structure Hwtimerval where
  sec : ℤ
  usec : ℤ

/-- `rt_hwtimer_t`, less its device. -/
structure Hwtimer where
  info : HwtimerInfo
  freq : ℤ
  overflow : ℤ
  periodSec : ℚ
  cycles : ℤ
  reload : ℤ
  mode : HwtimerMode

/-- The registers of a basic timer: prescaler, auto-reload value, the two counts, one-pulse mode and
counter enable. -/
structure TimBase where
  psc : ℕ
  arr : ℕ
  count : Counter
  opm : Bool
  cen : Bool

/-- A timer device with its registers. -/
structure TimerDev where
  hw : Hwtimer
  tim : TimBase

/-! ## The timeout -/

/-- The `float` nearest to a number: what a conversion or an operation returns. -/
def binary32 : ℚ → ℚ := Rounding.fl 24

/-- The loop of `timeout_calc` from the divisor `i` on, where `index` has had the least deviation so
far: the divisor and the timeout that it ends with. It must not divide by the initial `index`. -/
def timeoutLoop (tvSec overflow : ℚ) (freq : ℤ) : ℕ → ℕ → ℕ → ℚ → Option (ℕ × ℚ)
  | 0, _, _, _ => none
  | n + 1, i, index, deviMin =>
    let timeout := binary32 (tvSec / binary32 i)
    if timeout ≤ overflow then
      let counter := toUInt32 (binary32 (timeout * binary32 freq))
      let devi := binary32 (tvSec -
        binary32 (binary32 (binary32 counter / binary32 freq) * binary32 i))
      if devi > deviMin then
        if index = 0 then none else some (index, binary32 (tvSec / binary32 index))
      else if devi = 0 then some (i, timeout)
      else if devi < deviMin then timeoutLoop tvSec overflow freq n (i + 1) i devi
      else timeoutLoop tvSec overflow freq n (i + 1) index deviMin
    else timeoutLoop tvSec overflow freq n (i + 1) index deviMin

namespace Hwtimer

/-- `timeout_calc`: the count. `none` if the counter of its loop, an `int`, overflows. -/
def timeoutCalc (tv : Hwtimerval) (t : Hwtimer) : Option (ℕ × Hwtimer) := do
  let overflow := binary32 (binary32 t.info.maxcnt / binary32 t.freq)
  let tvSec := binary32 (binary32 tv.sec + binary32 (binary32 tv.usec / 1000000))
  let tick := binary32 (1 / binary32 t.freq)
  let (i, timeout) ←
    if tvSec < tick then some ((0 : ℕ), tick)
    else timeoutLoop tvSec overflow t.freq (2 ^ 31 - 1) 1 0 1
  return (toUInt32 (binary32 (timeout * binary32 t.freq)),
    { t with cycles := i, reload := i, periodSec := timeout })

end Hwtimer

/-! ## The driver below -/

namespace TimBase

/-- `timer_init`: a prescaler for 10 kHz and a period of 10000 counts. -/
def timerInit (timClk : ℕ) (tim : TimBase) : TimBase :=
  { tim with psc := uwrap 16 ((timClk / 10000 : ℕ) - 1), arr := 10000 - 1, count := ⟨0, 0⟩ }

/-- `timer_start`: the counter starts from 0, unless the HAL refuses; true if it does not. -/
def timerStart (startOk : Bool) (t : ℕ) (opmode : HwtimerMode) (tim : TimBase) : Bool × TimBase :=
  (startOk, { tim with
    count := { tim.count with cnt := 0 }
    arr := uwrap 32 ((t : ℤ) - 1)
    opm := decide (opmode = .oneshot)
    cen := tim.cen || startOk })

/-- `timer_stop` -/
def timerStop (tim : TimBase) : TimBase :=
  { tim with cen := false, count := { tim.count with cnt := 0 } }

/-- `timer_ctrl` for `HWTIMER_CTRL_FREQ_SET`: the divider is a 16-bit word, and the update event
clears both counts. -/
def timerCtrl (timClk : ℕ) (freq : ℤ) (tim : TimBase) : TimBase :=
  let val : ℕ := timClk / uwrap 32 freq % 2 ^ 16
  { tim with psc := uwrap 16 (val - 1), count := ⟨0, 0⟩ }

end TimBase

/-! ## The device -/

/-- The commands of `rt_hwtimer_control` that the program gives. -/
inductive HwtimerCmd where
  | stop
  | freqSet (freq : ℤ)
  | modeSet (mode : HwtimerMode)

namespace TimerDev

variable (timClk : ℕ)

/-- `rt_hwtimer_init` -/
def rtHwtimerInit (d : TimerDev) : RtErr × TimerDev :=
  let freq :=
    if 1000000 ≤ d.hw.info.maxfreq ∧ 1000000 ≥ d.hw.info.minfreq then 1000000
    else d.hw.info.minfreq
  (.eOk, {
    hw := { d.hw with freq, mode := .oneshot, cycles := 0, overflow := 0 }
    tim := d.tim.timerInit timClk })

/-- `rt_hwtimer_open` -/
def rtHwtimerOpen (d : TimerDev) : RtErr × TimerDev :=
  (.eOk, { d with tim := d.tim.timerCtrl timClk d.hw.freq })

/-- `rt_hwtimer_control`. A frequency out of range is refused with `-RT_EINVAL`. -/
def rtHwtimerControl (cmd : HwtimerCmd) (d : TimerDev) : RtErr × TimerDev :=
  match cmd with
  | .stop => (.eOk, { d with tim := d.tim.timerStop })
  | .freqSet f =>
    if f > d.hw.info.maxfreq ∨ f < d.hw.info.minfreq then (.other 10, d)
    else (.eOk, { hw := { d.hw with freq := f }, tim := d.tim.timerCtrl timClk f })
  | .modeSet mode => (.eOk, { d with hw.mode := mode })

/-- `rt_hwtimer_write` of one `rt_hwtimerval_t`: the size written. -/
def rtHwtimerWrite (startOk : Bool) (tv : Hwtimerval) (d : TimerDev) : Option (ℤ × TimerDev) := do
  let tim := d.tim.timerStop
  let (t, hw) ← Hwtimer.timeoutCalc tv { d.hw with overflow := 0 }
  let opm := if hw.cycles ≤ 1 ∧ hw.mode = .oneshot then HwtimerMode.oneshot else .period
  let (started, tim) := tim.timerStart startOk t opm
  return (if started then sizeofHwtimerval else 0, { hw, tim })

/-- `rt_device_hwtimer_isr`: true if it calls `rx_indicate`. -/
def rtDeviceHwtimerIsr (d : TimerDev) : TimerDev × Bool :=
  let hw := { d.hw with overflow := wrap 32 (d.hw.overflow + 1) }
  let hw := if hw.cycles ≠ 0 then { hw with cycles := hw.cycles - 1 } else hw
  if hw.cycles = 0 then
    let hw := { hw with cycles := hw.reload }
    (if hw.mode = .oneshot then { hw, tim := d.tim.timerStop } else { d with hw }, true)
  else ({ d with hw }, false)

/-- An edge of the clock. When the counter overflows, the timer stops in one-pulse mode, and the
interrupt runs. -/
def clockEdge (d : TimerDev) : TimerDev × Bool :=
  if d.tim.cen then
    let next := { d with tim.count := d.tim.count.edge d.tim.psc d.tim.arr }
    if d.tim.count.pre = d.tim.psc ∧ d.tim.count.cnt = d.tim.arr then
      { next with tim.cen := !d.tim.opm }.rtDeviceHwtimerIsr
    else (next, false)
  else (d, false)

/-- The calls of `rx_indicate` in `n` edges. -/
def indications : ℕ → TimerDev → ℕ
  | 0, _ => 0
  | n + 1, d => (if d.clockEdge.2 then 1 else 0) + indications n d.clockEdge.1

/-- What the inits of the controllers do with their timer: they open it, set its frequency and its
mode, and write the period. -/
def startControl (startOk : Bool) (periodUs : ℕ) (d : TimerDev) : Option (ℤ × TimerDev) :=
  let d := (d.rtHwtimerInit timClk).2
  let d := (d.rtHwtimerOpen timClk).2
  let d := (d.rtHwtimerControl timClk (.freqSet 1000000)).2
  let d := (d.rtHwtimerControl timClk (.modeSet .period)).2
  d.rtHwtimerWrite startOk ⟨(periodUs / 1000000 : ℕ), (periodUs % 1000000 : ℕ)⟩

end TimerDev

end H750Stepper
