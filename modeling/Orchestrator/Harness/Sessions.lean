import Orchestrator.Harness.Events
import Mathlib.Data.String.Basic

/-!
# Sessions across restarts

The worker keeps what it has polled in memory until `record_progress` has committed it, while the
cursor of the harness is already on disk (`Delivery`). A session that is resumed or forked is found
again by the name of its native file, or by the `id` in its first line (`findSessionFile`).
-/

namespace Orchestrator

/-! ## The cursor and the log -/

/-- An event, and how far the poll that returned it had read the file. -/
structure PolledEvent where
  upTo : Nat
  live : LiveEvent
deriving DecidableEq, Repr

structure Delivery where
  /-- The lines of the live-event file. -/
  file : List LiveLine := []
  exited : Bool := false
  /-- The cursor on disk. -/
  cursor : JsonlCursor := {}
  /-- What the worker has polled and not recorded yet. -/
  inHand : List PolledEvent := []
  recorded : List PolledEvent := []
deriving DecidableEq, Repr

namespace Delivery

inductive Act where
  | append (line : LiveLine)
  /-- The process exits, or `resume` spawns another. -/
  | process (exited : Bool)
  /-- `poll_events`, which has the cursor written before it returns. -/
  | poll (now : Timestamp) (registered : Bool)
  /-- The next event is committed. -/
  | record
  /-- The worker dies; `adopt_inner` goes on from what is on disk. -/
  | crash
deriving DecidableEq, Repr

/-- One step; `drive_running` polls again when it is done with what it has. -/
def next (session : SessionRef) (d : Delivery) : Act → Option Delivery
  | .append line => some { d with file := d.file ++ [line] }
  | .process exited => some { d with exited }
  | .poll now registered =>
    if d.inHand = [] then
      match readEvents session now d.cursor (registered && d.exited) d.file with
      | .ok (some batch) => some { d with
          cursor := batch.cursor
          inHand := batch.events.map (⟨batch.cursor.offset, ·⟩) }
      | .ok none | .error _ => some d
    else none
  | .record =>
    match d.inHand with
    | [] => none
    | p :: rest => some { d with inHand := rest, recorded := d.recorded ++ [p] }
  | .crash => some { d with inHand := [] }

def Step (session : SessionRef) (d d' : Delivery) : Prop := ∃ act, d.next session act = some d'

end Delivery

/-! ## The native file of a session -/

/-- An entry of the conversation directory. -/
structure SessionFile where
  name : String
  isFile : Bool := true
  /-- The `id` in its first line, where that is JSON. -/
  firstId : Option String := none
deriving DecidableEq, Repr

/-- `name.contains(text)`. -/
def holdsText (name text : String) : Bool := text.toList <:+: name.toList

namespace SessionFile

/-- `extension() == Some("jsonl")`: a name that is only the extension has none. -/
def isJsonl (f : SessionFile) : Bool :=
  ".jsonl".toList <:+ f.name.toList && f.name ≠ ".jsonl"

def candidate (f : SessionFile) : Bool :=
  f.isFile && f.isJsonl && !("pi.events-".toList <+: f.name.toList) &&
    !("pi.stderr-".toList <+: f.name.toList)

def isFor (sessionId : String) (f : SessionFile) : Bool :=
  holdsText f.name sessionId || f.firstId = some sessionId

end SessionFile

/-- `find_session_file`; the order in which the directory is read does not matter. -/
def findSessionFile (dir : List SessionFile) (sessionId : String) : Option SessionFile :=
  ((dir.filter SessionFile.candidate).insertionSort fun f g => f.name ≤ g.name).find?
    (SessionFile.isFor sessionId)

/-- The session ids of execution `e`: `start` takes its own id, and `request_control` makes
`format!("{}-fork-{request_id}", …)`. -/
inductive SessionOf (e : String) : String → Prop where
  | start : SessionOf e e
  | fork {s : String} (requestId : Nat) : SessionOf e s → SessionOf e s!"{s}-fork-{requestId}"

end Orchestrator
