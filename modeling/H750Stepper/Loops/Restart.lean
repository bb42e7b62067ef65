import H750Stepper.Position.Output
import H750Stepper.Position.Restart
import H750Stepper.Speed.Restart

/-!
# Restarting a control loop

`restart_erases_history`: what a position loop or a speed loop outputs and commands after a stop
depends on its settings, the later calls and the readings of its inputs there, and not on what it
has done before.
-/

namespace H750Stepper

open Threads

/-- **A restart erases the history.** Two stopped loops with the same settings, whatever their
pasts, output the same and pass the same directions and frequencies to the driver at every step of
the same later calls, as long as each read of the encoder and of the fault input finds the same. -/
theorem restart_erases_history (posCfg : PosConfig) (sqrtf : ℚ → ℚ) (speedCfg : SpeedConfig) :
    (∀ a b : PosSys, PosPast posCfg sqrtf a → PosPast posCfg sqrtf b →
      a.pl.running = false → b.pl.running = false → a.SameSettings b →
      ∀ ops ops' : List PosOp, List.Forall₂ PosOp.Same ops ops' →
        let run := history (PosOp.apply posCfg sqrtf) a ops
        let run' := history (PosOp.apply posCfg sqrtf) b ops'
        List.Forall₂ PosOp.SameInputs run run' →
          List.Forall₂ (PosOp.SameOutputs posCfg sqrtf) run run') ∧
    ∀ a b : SpeedSys, SpeedPast speedCfg a → SpeedPast speedCfg b →
      a.sl.running = false → b.sl.running = false → a.pid.tuning = b.pid.tuning →
      ∀ ops ops' : List SpeedOp, List.Forall₂ SpeedOp.Same ops ops' →
        let run := history (SpeedOp.apply speedCfg) a ops
        let run' := history (SpeedOp.apply speedCfg) b ops'
        List.Forall₂ SpeedOp.SameInputs run run' →
          List.Forall₂ (SpeedOp.SameOutputs speedCfg) run run' := by
  constructor
  · intro a b ha hb hstop hstop' hset ops ops' hops run run' hin
    exact pos_restart ha hb hstop hstop' hset hops hin
  · intro a b ha hb hstop hstop' htuning ops ops' hops run run' hin
    exact speed_restart ha hb hstop hstop' htuning hops hin

/-- A new position loop. -/
def newPos : PosSys := { restingPos with pid.kp := 1 }

/-- The same loop, stopped on its way to a target. -/
def usedPos : PosSys :=
  [.start, .setTarget 500, .tick, .encoder ⟨40, 40, 40⟩, .tick, .stop].foldl
    (PosOp.apply (posConfig0 5000) fun x => x) newPos

/-- A speed loop stopped on its way to a target. -/
def usedSpeed : SpeedSys :=
  [.start, .setTarget 800, .tick, .turn 7, .tick, .stop].foldl
    (SpeedOp.apply (speedConfig0 false)) restingSpeed

/-- Each of the used loops and a new one, in the same moves. -/
theorem restart_erases_history_used :
    let ops : List PosOp :=
      [.encoder ⟨0, 0, 0⟩, .start, .setTarget 300, .tick, .encoder ⟨5, 5, 5⟩, .tick]
    let ops' : List PosOp :=
      [.encoder ⟨7, 12, 5⟩, .start, .setTarget 300, .tick, .encoder ⟨5, 9, 9⟩, .tick]
    let run := history (PosOp.apply (posConfig0 5000) fun x => x) newPos ops
    let run' := history (PosOp.apply (posConfig0 5000) fun x => x) usedPos ops'
    let moves : List SpeedOp := [.turn 7, .start, .setTarget 900, .tick, .turn 2, .tick]
    let moves' : List SpeedOp := [.turn 0, .start, .setTarget 900, .tick, .turn 2, .tick]
    let drive := history (SpeedOp.apply (speedConfig0 false)) restingSpeed moves
    let drive' := history (SpeedOp.apply (speedConfig0 false)) usedSpeed moves'
    List.Forall₂ (PosOp.SameOutputs (posConfig0 5000) fun x => x) run run' ∧
      List.Forall₂ (SpeedOp.SameOutputs (speedConfig0 false)) drive drive' := by
  intro ops ops' run run' moves moves' drive drive'
  obtain ⟨hpos, hspeed⟩ := restart_erases_history (posConfig0 5000) (fun x => x)
    (speedConfig0 false)
  have hnewPos : PosPast (posConfig0 5000) (fun x => x) newPos :=
    .init 1 (-1000000) 1000000 newPos.pid newPos.enc newPos.drv
  have hnewSpeed : SpeedPast (speedConfig0 false) restingSpeed :=
    .init restingSpeed.pid restingSpeed.enc restingSpeed.drv
  have husedPos : PosPast (posConfig0 5000) (fun x => x) usedPos :=
    hnewPos.foldl _
  have husedSpeed : SpeedPast (speedConfig0 false) usedSpeed :=
    hnewSpeed.foldl _
  constructor
  · refine hpos newPos usedPos hnewPos husedPos rfl (by decide +kernel) ?_ ops ops'
      (by decide +kernel) (by decide +kernel)
    constructor <;> decide +kernel
  · exact hspeed restingSpeed usedSpeed hnewSpeed husedSpeed rfl (by decide +kernel)
      (by decide +kernel) moves moves' (by decide +kernel) (by decide +kernel)

end H750Stepper
