import Mathlib.Tactic.Conv
import Mathlib.Tactic.SplitIfs

/-!
# Replaying a recorded violation

A replay (`internal/orchestrator/replay.go`) caps the states of its run, in the configuration that
all copies share, and looks for the recorded violation.
-/

namespace OpenThesis.Orchestrator

structure ViolationEntry where
  property : String
  message : String
  step : UInt64
  deriving DecidableEq, Repr

structure Artifact where
  property : String
  message : String
  step : UInt64
  seed : UInt64
  deriving DecidableEq, Repr

def maxReplayStates (step : UInt64) : UInt64 :=
  let states := step + step / 5 + 50
  if states < 200 then 200 else states

def capStates (step maxStates : UInt64) : UInt64 :=
  if maxStates = 0 ∨ maxReplayStates step < maxStates then maxReplayStates step else maxStates

theorem maxReplayStates_ne_zero (step : UInt64) : maxReplayStates step ≠ 0 := by
  intro zero
  have small : maxReplayStates step < 200 := by
    rw [zero]
    decide
  unfold maxReplayStates at small
  dsimp only at small
  split_ifs at small with less
  · exact absurd small (by decide)
  · exact less small

theorem capStates_ne_zero (step maxStates : UInt64) : capStates step maxStates ≠ 0 := by
  unfold capStates
  split_ifs with replaced
  · exact maxReplayStates_ne_zero step
  · exact fun zero => replaced (.inl zero)

theorem capStates_le (step maxStates : UInt64) :
    capStates step maxStates ≤ maxReplayStates step := by
  unfold capStates
  split_ifs with replaced
  · exact UInt64.le_refl _
  · exact UInt64.not_lt.mp fun less => replaced (.inr less)

@[simp]
theorem capStates_capStates (step maxStates : UInt64) :
    capStates step (capStates step maxStates) = capStates step maxStates := by
  conv_lhs => rw [capStates]
  rw [if_neg]
  rintro (zero | less)
  · exact capStates_ne_zero step maxStates zero
  · exact absurd (capStates_le step maxStates) (UInt64.not_le.mpr less)

namespace Artifact

variable (artifact : Artifact)

def matched (violations : List ViolationEntry) : Option ViolationEntry :=
  (violations.find? fun v => v.property == artifact.property && v.message == artifact.message).or
    (violations.find? fun v => v.property == artifact.property)

def replaySeed (seed : UInt64) : UInt64 :=
  if seed = 0 then artifact.seed else seed

end Artifact

end OpenThesis.Orchestrator
