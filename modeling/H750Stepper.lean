import H750Stepper.Lib.Pool
import H750Stepper.Driver.Motor
import H750Stepper.Driver.Encoder
import H750Stepper.Driver.StepCount
import H750Stepper.Driver.Pid
import H750Stepper.Driver.PidBounds
import H750Stepper.Driver.PidWindup
import H750Stepper.Driver.Command
import H750Stepper.Driver.Scale
import H750Stepper.Driver.Prescaler
import H750Stepper.Position.PositionLoop
import H750Stepper.Position.Tick
import H750Stepper.Position.Output
import H750Stepper.Position.Smooth
import H750Stepper.Position.Mirror
import H750Stepper.Position.Window
import H750Stepper.Position.FeedForward
import H750Stepper.Position.IdleCurrent
import H750Stepper.Position.Homing
import H750Stepper.Position.MoveTo
import H750Stepper.Position.Physical
import H750Stepper.Position.Planner
import H750Stepper.Position.Notes
import H750Stepper.Position.RampRange
import H750Stepper.Position.Overflow
import H750Stepper.Speed.SpeedLoop
import H750Stepper.OpenLoop.OpenLoop
import H750Stepper.OpenLoop.OpenMove
import H750Stepper.OpenLoop.OpenSlew
import H750Stepper.OpenLoop.OpenReach
import H750Stepper.Loops.StopFinal
import H750Stepper.Speed.Displacement
import H750Stepper.Speed.Slew
import H750Stepper.Position.Restart
import H750Stepper.Speed.Tick
import H750Stepper.Speed.Restart
import H750Stepper.Loops.Restart
import H750Stepper.Driver.FaultInterlock
import H750Stepper.Driver.EnPin
import H750Stepper.Driver.Bookkeeping
import H750Stepper.Driver.PulseTrain
import H750Stepper.Driver.FaultLatch
import H750Stepper.Driver.Backoff
import H750Stepper.Driver.Brake
import H750Stepper.Driver.BrakeAsync
import H750Stepper.Loops.Timeouts
import H750Stepper.Loops.Divisors
import H750Stepper.Loops.Shell
import H750Stepper.Timer.Delivery
import H750Stepper.Timer.Ticks
import H750Stepper.Timer.Period
import H750Stepper.Kernel.MutexRun
import H750Stepper.Kernel.Timing
import H750Stepper.Finsh.Msh
import H750Stepper.Finsh.Words
import H750Stepper.Finsh.Split
import H750Stepper.Loops.Board
import H750Stepper.Loops.Independence
import H750Stepper.Finsh.Exec
import H750Stepper.Loops.Lines
