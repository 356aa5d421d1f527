import Orchestrator.Core.Execution

/-!
# The health monitor

`health.rs` and the sample throttle of `run.rs`. Instants and durations are microseconds on the
monotonic clock; `Instant::duration_since` saturates at zero, as subtraction of naturals does. Only a
rising I/O counter is progress, and no time is counted while the execution is paused.
-/

namespace Orchestrator

/-- A point of, or a span on, the monotonic clock, in microseconds. -/
abbrev Instant := Nat

def secs (n : Nat) : Nat := n * 1000000

/-- One probe of an execution's resource use. -/
structure ResourceSample where
  cpuPercent : Rat
  ioBytes : Option Nat := none
  rssBytes : Option Nat := none
  diskBytes : Option Nat := none
  currentCommand : Option String := none
deriving DecidableEq, Repr

inductive HealthAssessment where
  | healthy
  | quietHealthy (quietSeconds : Nat)
  | inactiveWarning (seconds : Nat)
  | failed (failure : FailureClass)
deriving DecidableEq, Repr

structure HealthMonitor where
  startedAt : Instant
  lastEventAt : Instant
  lastProgressAt : Instant
  lastIoBytes : Option Nat := none
  saturatedSince : Option Instant := none
  pausedAt : Option Instant := none
  warnedForEventWindow : Bool := false
  inactivity : Nat
  wallClock : Nat
  cpuSaturation : Nat
deriving DecidableEq, Repr

namespace HealthMonitor

def cpuSaturationPercent : Rat := 95

def newAt (startedAt : Instant) (inactivity wallClock cpuSaturation : Nat) : HealthMonitor where
  startedAt
  lastEventAt := startedAt
  lastProgressAt := startedAt
  inactivity
  wallClock
  cpuSaturation

def defaultAt (startedAt : Instant) : HealthMonitor :=
  newAt startedAt (secs 900) (secs 14400) (secs 3600)

def recordEvent (m : HealthMonitor) (at_ : Instant) : HealthMonitor :=
  { m with lastEventAt := at_, warnedForEventWindow := false }

def pause (m : HealthMonitor) (at_ : Instant) : HealthMonitor :=
  { m with pausedAt := some (m.pausedAt.getD at_) }

/-- The clocks move on by the time that was spent paused. -/
def resume (m : HealthMonitor) (at_ : Instant) : HealthMonitor :=
  match m.pausedAt with
  | none => m
  | some pausedAt =>
    let suspended := at_ - pausedAt
    { m with
      pausedAt := none
      startedAt := m.startedAt + suspended
      lastEventAt := m.lastEventAt + suspended
      lastProgressAt := m.lastProgressAt + suspended
      saturatedSince := m.saturatedSince.map (· + suspended) }

/-- Take the I/O counter of a sample: a risen counter is progress, anything else a new baseline. -/
def observeIo (m : HealthMonitor) (now : Instant) (ioBytes : Option Nat) : HealthMonitor :=
  match ioBytes with
  | none => m
  | some bytes =>
    if m.lastIoBytes.any (· < bytes) then
      { m with lastProgressAt := now, warnedForEventWindow := false, lastIoBytes := some bytes }
    else { m with lastIoBytes := some bytes }

/-- The verdict once neither the wall clock, nor inactivity, nor saturation has failed it. -/
def warn (m : HealthMonitor) (silentFor inactiveFor : Nat) : HealthAssessment × HealthMonitor :=
  if !m.warnedForEventWindow ∧ m.inactivity / 2 ≤ inactiveFor then
    (.inactiveWarning (inactiveFor / 1000000), { m with warnedForEventWindow := true })
  else if m.inactivity < silentFor then (.quietHealthy (silentFor / 1000000), m)
  else (.healthy, m)

def assess (m : HealthMonitor) (now : Instant) (sample : ResourceSample) :
    HealthAssessment × HealthMonitor :=
  if m.pausedAt.isSome then (.healthy, m)
  else if m.wallClock < now - m.startedAt then (.failed .timeout, m)
  else
    let m := m.observeIo now sample.ioBytes
    let silentFor := now - m.lastEventAt
    let inactiveFor := now - max m.lastEventAt m.lastProgressAt
    if m.inactivity < inactiveFor then (.failed .inactivity, m)
    else if cpuSaturationPercent < sample.cpuPercent then
      let since := m.saturatedSince.getD now
      let m := { m with saturatedSince := some since }
      if m.cpuSaturation ≤ now - since then (.failed .resourceViolation, m)
      else m.warn silentFor inactiveFor
    else { m with saturatedSince := none }.warn silentFor inactiveFor

end HealthMonitor

def HealthAssessment.verdict : HealthAssessment → WatchdogVerdict
  | healthy | inactiveWarning _ => .healthy
  | quietHealthy _ => .quietHealthy
  | failed _ => .stalled

/-- At most one watchdog sample a minute, and one at once when the verdict changes. -/
structure SampleThrottle where
  lastEmittedAt : Option Instant := none
  lastVerdict : Option WatchdogVerdict := none
deriving DecidableEq, Repr

namespace SampleThrottle

def isDue (t : SampleThrottle) (now : Instant) (verdict : WatchdogVerdict) : Bool :=
  t.lastEmittedAt.isNone || t.lastVerdict ≠ some verdict ||
    t.lastEmittedAt.any fun last => last + secs 60 ≤ now

def markEmitted (now : Instant) (verdict : WatchdogVerdict) : SampleThrottle :=
  ⟨some now, some verdict⟩

end SampleThrottle
end Orchestrator
