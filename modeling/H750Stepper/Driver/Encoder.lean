import H750Stepper.Lib.CInt

/-!
# The encoder driver

`stepper_encoder_driver.c` extends the 16-bit counter of an encoder timer to a signed 32-bit
position: each call takes the difference to the counter value of the call before, as a signed 16-bit
word, and adds it to `overflow`. The calls mask interrupts, so each is one function here.

`readings_exact`: as long as the encoder moves by at most half a turn of the counter between two
calls, every reading is the true displacement since the last call that re-based the position.
-/

namespace H750Stepper

open CInt

/-- The fields of `stepper_encoder_driver_t` that count, and the register `CNT` of its timer. -/
structure Encoder where
  overflow : ℤ
  lastRaw : ℕ
  cnt : ℕ
  deriving DecidableEq, Inhabited

namespace Encoder

/-- What `stepper_encoder_driver_init` leaves: the current `CNT` is the zero of the position. -/
def init (enc : Encoder) : Encoder := { enc with overflow := 0, lastRaw := enc.cnt }

/-- `stepper_encoder_driver_read`: the new state; the result is its `overflow`. -/
def read (enc : Encoder) : Encoder :=
  let raw := enc.cnt
  let diff := wrap 16 ((raw : ℤ) - enc.lastRaw)
  { enc with lastRaw := raw, overflow := wrap 32 (enc.overflow + diff) }

/-- `stepper_encoder_driver_clear` -/
def clear (_ : Encoder) : Encoder := { cnt := 0, overflow := 0, lastRaw := 0 }

/-- `stepper_encoder_driver_sync` -/
def sync (enc : Encoder) : Encoder := { enc with lastRaw := enc.cnt, overflow := 0 }

/-- The shaft moves by `d` counts: the hardware counts modulo `2 ^ 16`. -/
def turn (d : ℤ) (enc : Encoder) : Encoder := { enc with cnt := uwrap 16 (enc.cnt + d) }

/-! ## Runs of calls -/

/-- The calls of the driver after init. -/
inductive Op where
  | read | clear | sync
  deriving DecidableEq

/-- The effect of a call. -/
def apply (enc : Encoder) : Op → Encoder
  | .read => enc.read
  | .clear => enc.clear
  | .sync => enc.sync

/-- The results of the reads of a run. A run lists the calls, each with the displacement of the
shaft since the call before. -/
def readings (enc : Encoder) : List (ℤ × Op) → List ℤ
  | [] => []
  | (d, op) :: run =>
    let enc := (enc.turn d).apply op
    match op with
    | .read => enc.overflow :: readings enc run
    | _ => readings enc run

/-- The true displacements that the reads of a run should report, from a displacement `x` since the
last re-basing on. -/
def displacements (x : ℤ) : List (ℤ × Op) → List ℤ
  | [] => []
  | (d, .read) :: run => (x + d) :: displacements (x + d) run
  | (_, .clear) :: run => displacements 0 run
  | (_, .sync) :: run => displacements 0 run

/-- The state between two calls, `x` counts away from the zero of the position: `last_raw` is the
hardware counter, and `overflow` is `x` as far as 32 bits can tell. -/
structure Tracks (enc : Encoder) (x : ℤ) : Prop where
  lastRaw : enc.lastRaw = enc.cnt
  overflow : enc.overflow = wrap 32 x

theorem tracks_init (enc : Encoder) : Tracks enc.init 0 := ⟨rfl, rfl⟩

theorem tracks_clear (enc : Encoder) : Tracks enc.clear 0 := ⟨rfl, rfl⟩

theorem tracks_sync (enc : Encoder) : Tracks enc.sync 0 := ⟨rfl, rfl⟩

/-- The signed difference of the counter values is the displacement itself. -/
theorem diff_turn {enc : Encoder} {d : ℤ} (hd : Fits 16 d) :
    wrap 16 (((enc.turn d).cnt : ℤ) - enc.cnt) = d := by
  have h : ((enc.turn d).cnt : ℤ) = (enc.cnt + d) % 2 ^ 16 := uwrap_cast 16 _
  calc wrap 16 (((enc.turn d).cnt : ℤ) - enc.cnt) = wrap 16 d := wrap_congr (by rw [h]; omega)
    _ = d := wrap_of_fits hd

/-- A read after a displacement `d` of at most half a turn of the counter. -/
theorem Tracks.read {enc : Encoder} {x d : ℤ} (h : Tracks enc x) (hd : Fits 16 d) :
    Tracks (enc.turn d).read (x + d) := by
  refine ⟨rfl, ?_⟩
  have hlast : (enc.turn d).lastRaw = enc.cnt := h.lastRaw
  have hover : (enc.turn d).overflow = wrap 32 x := h.overflow
  simp only [Encoder.read, hlast, hover, diff_turn hd]
  have := wrap_emod 32 x
  exact wrap_congr (by omega)

theorem readings_of_tracks {enc : Encoder} {x : ℤ} (h : Tracks enc x) {run : List (ℤ × Op)}
    (hd : ∀ c ∈ run, Fits 16 c.1) (hx : ∀ y ∈ displacements x run, Fits 32 y) :
    enc.readings run = displacements x run := by
  induction run generalizing enc x with
  | nil => rfl
  | cons c run ih =>
    obtain ⟨d, op⟩ := c
    obtain ⟨hd, hrun⟩ := List.forall_mem_cons.mp hd
    cases op with
    | read =>
      obtain ⟨hx, hrest⟩ := List.forall_mem_cons.mp hx
      have htr := h.read hd
      have hval : (enc.turn d).read.overflow = x + d := htr.overflow.trans (wrap_of_fits hx)
      exact congrArg₂ List.cons hval (ih htr hrun hrest)
    | clear => exact ih (tracks_clear (enc.turn d)) hrun hx
    | sync => exact ih (tracks_sync (enc.turn d)) hrun hx

/-- **The 32-bit position is exact.** In a run of calls after init whose displacements between
consecutive calls are signed 16-bit words, and whose true displacements at the reads are signed
32-bit words, every read returns the true displacement since the last `clear`, `sync` or `init`. -/
theorem readings_exact (enc : Encoder) (run : List (ℤ × Op)) (hd : ∀ c ∈ run, Fits 16 c.1)
    (hx : ∀ y ∈ displacements 0 run, Fits 32 y) :
    enc.init.readings run = displacements 0 run :=
  readings_of_tracks (tracks_init enc) hd hx

/-- Two turns of the counter forward, a re-basing, and a turn back. -/
theorem readings_exact_turns :
    (Encoder.mk 7 9 65000).init.readings
        [(30000, .read), (32767, .read), (30000, .read), (-9, .sync), (-32768, .read),
          (-32768, .read), (5, .clear), (-1, .read)] =
      [30000, 62767, 92767, -32768, -65536, -1] :=
  readings_exact ⟨7, 9, 65000⟩ _ (by decide) (by decide)

end Encoder

end H750Stepper
