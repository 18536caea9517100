import Mathlib.Data.UInt

/-!
# Fault kinds

Kinds of faults (`internal/fault/fault.go`), their names and their bits in a mask.
-/

namespace OpenThesis.Fault

/-- The kinds of faults. -/
inductive Kind where
  | drop
  | delay
  | partition
  | throttle
  | hang
  | terminate
  | clockJitter
  | threadPause
  | reorder
  | cpuThrottle
  | nWayPartition
  | diskSlow
  | diskFull
  | diskCorrupt
  | memPressure
  | clear
  | script
  | cpuModulate
  | diskFlakey
  deriving DecidableEq, Repr

namespace Kind

def name : Kind → String
  | drop => "drop"
  | delay => "delay"
  | partition => "partition"
  | throttle => "throttle"
  | hang => "hang"
  | terminate => "terminate"
  | clockJitter => "clock_jitter"
  | threadPause => "thread_pause"
  | reorder => "reorder"
  | cpuThrottle => "cpu_throttle"
  | nWayPartition => "nway_partition"
  | diskSlow => "disk_slow"
  | diskFull => "disk_full"
  | diskCorrupt => "disk_corrupt"
  | memPressure => "mem_pressure"
  | clear => "clear"
  | script => "script"
  | cpuModulate => "cpu_modulate"
  | diskFlakey => "disk_flakey"

def all : List Kind :=
  [drop, delay, partition, throttle, hang, terminate, clockJitter, threadPause, reorder,
    cpuThrottle, nWayPartition, diskSlow, diskFull, diskCorrupt, memPressure, clear, script,
    cpuModulate, diskFlakey]

def ofName (name : String) : Option Kind :=
  all.find? fun kind => kind.name = name

@[simp]
theorem ofName_name (kind : Kind) : ofName kind.name = some kind := by
  cases kind <;> rfl

end Kind

def maskBit (bit : UInt16) : UInt16 :=
  1 <<< bit

def kindToMask : Kind → UInt16
  | .drop => maskBit 0
  | .delay => maskBit 1
  | .partition => maskBit 2
  | .throttle => maskBit 3
  | .hang => maskBit 4
  | .terminate => maskBit 5
  | .clockJitter => maskBit 6
  | .threadPause => maskBit 7
  | .reorder => maskBit 8
  | .cpuThrottle => maskBit 9
  | .nWayPartition => maskBit 10
  | .diskSlow => maskBit 11
  | .diskFull => maskBit 12
  | .diskCorrupt => maskBit 13
  | .memPressure => maskBit 14
  | .script => maskBit 15
  | _ => 0

end OpenThesis.Fault
