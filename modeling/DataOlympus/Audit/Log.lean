import DataOlympus.Chain.Linked
import DataOlympus.Python.Clock
import DataOlympus.Python.Mapping
import DataOlympus.Text.Order
import DataOlympus.Transition.Run
import Mathlib.Algebra.Ring.Nat
import Mathlib.Data.List.AList

/-!
# The audit log

Events are appended to a live file as lines of JSON, each with the hash of the event
before it.  A live file that has grown too large is renamed after the time of the next
append.  Verification reads the renamed files in the order of their names and the live
file last.
-/

namespace DataOlympus

open Lines Transition

/-- A line of a log file, once stripped. -/
inductive AuditLine where
  | blank
  /-- `json.loads` raises. -/
  | malformed
  | json (value : Value)

/-- A JSON value with a `hash`. -/
def Value.hashedEvent : Value → Option Mapping
  | .dict event => if (Mapping.get event "hash").any truthy then some event else none
  | _ => none

/-- The body of `_canonical`: the event without its own hash. -/
def Mapping.unsigned (event : Mapping) : Mapping :=
  event.without "hash"

/-- `GENESIS`. -/
def genesis : PyStr :=
  []

/-- The files of a log and what the process keeps in memory.  `written` lists the events
that were appended. -/
structure AuditState where
  /-- `<stem>-<stamp><suffix>` -/
  rotated : AList fun _ : Text => List AuditLine
  live : Option (List AuditLine)
  maxBytes : Nat
  lastHash : Value
  written : List Mapping

/-- What the log uses: the two parts of `os.path.splitext(log_path)`, the digest of a
canonical body under the key, and the size of a line in bytes. -/
structure AuditConfig where
  stem : Text
  suffix : Text
  digest : Mapping → Text
  bytes : AuditLine → Nat

/-! ## Segments -/

namespace AuditState

/-- `_rotated_paths()`; the suffix, which the glob does not escape, has no `*`, `?` or `[`. -/
def rotatedPaths (log : AuditState) : List Text :=
  sortedNames log.rotated.keys

/-- The lines of all segments, in the order in which they are read. -/
def lines (log : AuditState) : List AuditLine :=
  (log.rotatedPaths.flatMap fun path => (log.rotated.lookup path).getD []) ++ log.live.getD []

end AuditState

/-- The loop of `_load_last_hash`. -/
def loadLastHash (last : Value) : List AuditLine → Value
  | [] => last
  | .json value :: rest =>
      match value.hashedEvent with
      | some event => loadLastHash ((event.get "hash").getD last) rest
      | none => loadLastHash last rest
  | _ :: rest => loadLastHash last rest

/-- A new process on the same files. -/
def AuditState.restart (log : AuditState) (maxBytes : Int) : AuditState :=
  { log with maxBytes := maxBytes.toNat, lastHash := loadLastHash (.str genesis) log.lines }

namespace AuditConfig

variable (config : AuditConfig)

/-- The candidates of `_rotated_path_for(when)`, the plain one first. -/
def candidate (stamp : Text) : Nat → Text
  | 0 => config.stem ++ '-' :: stamp ++ config.suffix
  | n + 1 => config.stem ++ '-' :: stamp ++ '-' :: Nat.toDigits 10 (n + 1) ++ config.suffix

/-- The loop of `_rotated_path_for`, for as many candidates as there may be files. -/
def firstFree (stamp : Text) (taken : List Text) : Nat → Nat → Text
  | 0, n => config.candidate stamp n
  | fuel + 1, n =>
      if config.candidate stamp n ∈ taken then firstFree stamp taken fuel (n + 1)
      else config.candidate stamp n

/-- `_rotated_path_for(when)`. -/
def rotatedPathFor (log : AuditState) (now : Time) : Text :=
  config.firstFree now.stamp log.rotated.keys log.rotated.keys.length 0

/-- The live file is not empty and has reached the limit. -/
def rotates (log : AuditState) : Bool :=
  match log.live with
  | none => false
  | some lines => 0 < log.maxBytes && log.maxBytes ≤ (lines.map config.bytes).sum

/-- `_maybe_rotate_locked()`. -/
def maybeRotate (log : AuditState) (now : Time) : AuditState :=
  if config.rotates log then
    { log with
      rotated := log.rotated.insert (config.rotatedPathFor log now) (log.live.getD [])
      live := none }
  else log

/-- The event as it is written. -/
def chained (last : Value) (event : Mapping) (eventId : Text) : Mapping :=
  let linked := (event.set "event_id" (.str (PyStr.ofText eventId))).set "prev_hash" last
  linked.set "hash" (.str (PyStr.ofText (config.digest linked.unsigned)))

/-- `append(event)`. -/
def append (log : AuditState) (event : Mapping) (eventId : Text) (now : Time) : AuditState :=
  let before := config.maybeRotate log now
  let record := config.chained log.lastHash event eventId
  { before with
    live := some (before.live.getD [] ++ [.json (.dict record)])
    lastHash := (record.get "hash").getD .null
    written := log.written ++ [record] }

/-- `append(event)` that raises behind its rotation: the event has no digest or cannot be
printed. -/
def refuse (log : AuditState) (now : Time) : AuditState :=
  config.maybeRotate log now

/-- The loop of `verify()`. -/
def verifyLines (prev : PyStr) (seenHashed : Bool) (index : Nat) :
    List AuditLine → Bool × Int
  | [] => (true, -1)
  | .blank :: rest => verifyLines prev seenHashed (index + 1) rest
  | .malformed :: _ => (false, index)
  | .json value :: rest =>
      match value.hashedEvent with
      | none => if seenHashed then (false, index) else verifyLines prev seenHashed (index + 1) rest
      | some event =>
          let digest := PyStr.ofText (config.digest event.unsigned)
          if (event.get "prev_hash").any (Value.isStr prev) &&
              (event.get "hash").any (Value.isStr digest) then
            verifyLines digest true (index + 1) rest
          else (false, index)

/-- `verify()`. -/
def verify (log : AuditState) : Bool × Int :=
  config.verifyLines genesis false 0 log.lines

end AuditConfig

end DataOlympus
