import DataOlympus.Audit.Rotation
import DataOlympus.Python.JsonClosed
import DataOlympus.Text.Listing
import Mathlib.Data.List.DropRight

/-!
# The files of the audit log

The log as text: an append writes one line of JSON behind what the live file holds, whatever
that is, and the readers take the files apart at their line breaks.  A crash leaves a part of
a line without its line break.
-/

namespace DataOlympus

open Json Lines Transition

/-! ## Lines of a file -/

/-- The loop over the characters of a file, with the letters of the line in reverse. -/
def linesAfter (letters : Text) : Text → List Text
  | [] => if letters.isEmpty then [] else [letters.reverse]
  | c :: rest =>
      if c = '\n' then letters.reverse :: linesAfter [] rest else linesAfter (c :: letters) rest

/-- `f.readlines()`, without the line breaks. -/
def readlines (text : Text) : List Text :=
  linesAfter [] (universalNewlines text)

/-- A line as the readers take it. -/
def JsonModule.readLine (json : JsonModule) (line : Text) : AuditLine :=
  let stripped := strip line
  if stripped.isEmpty then .blank
  else (json.loads stripped).elim .malformed .json

/-- An event that `json.dumps` prints and `json.loads` gives back. -/
abbrev JsonEvent : Type :=
  { event : Mapping // Value.isJsonEntries event = true }

/-- What was done with a record: it was appended, or its append crashed behind a part of its
line. -/
inductive AuditEntry where
  | event (record : Mapping)
  | torn (record : Mapping) (fragment : Text)

/-- The files of a log and the running process.  `entries` lists what was done. -/
structure AuditFiles where
  /-- `<stem>-<stamp><suffix>` -/
  rotated : AList fun _ : Text => Text
  live : Option Text
  /-- The live file ends within the bytes of a character. -/
  splits : Bool
  maxBytes : Nat
  /-- `_last_hash`, while a process is running. -/
  process : Option Value
  entries : List AuditEntry

/-- The filters of `iter_filtered`. -/
structure AuditQuery where
  /-- `ts < since`. -/
  since : Option (Value → Bool)
  agent : Option PyStr
  status : Option PyStr
  includeRotated : Bool
  maxScanEvents : Option Int

/-- Everything there is, with the rotated segments. -/
def AuditQuery.everything : AuditQuery where
  since := none
  agent := none
  status := none
  includeRotated := true
  maxScanEvents := none

/-- What a value does to the scan of `iter_filtered`. -/
inductive ScanEnd where
  | passes
  | stops
  | yields

/-- A number that is no `bool`. -/
def Value.isReal : Value → Bool
  | .int _ => true
  | .float _ => true
  | _ => false

/-- The filters on the fields of an event. -/
def AuditQuery.select (query : AuditQuery) (event : Mapping) : ScanEnd :=
  if query.agent.any fun agent => !(event.get "agent_identity").any (Value.isStr agent) then .passes
  else if query.status.any fun status => !(event.get "status").any (Value.isStr status) then
    .passes
  else .yields

/-- The body of the loop of `iter_filtered`. -/
def AuditQuery.examine (query : AuditQuery) : Value → ScanEnd
  | .dict event =>
      let ts := (Mapping.get event "ts").getD (.int 0)
      match query.since with
      | none => query.select event
      | some before =>
          if !ts.isReal then .passes
          else if before ts then .stops
          else query.select event
  | _ => if query.since.isNone && query.agent.isNone && query.status.isNone then .yields else .passes

/-- The loop of `iter_filtered`, with `scanned`. -/
def AuditQuery.iterLines (query : AuditQuery) (scanned : Nat) : List AuditLine → List Value
  | [] => []
  | line :: rest =>
      if query.maxScanEvents.any fun limit => limit ≤ (scanned : Int) then []
      else
        match line with
        | .blank => iterLines query scanned rest
        | .malformed => iterLines query (scanned + 1) rest
        | .json value =>
            match query.examine value with
            | .passes => iterLines query (scanned + 1) rest
            | .stops => []
            | .yields => value :: iterLines query (scanned + 1) rest

/-- `os.path.getsize(…)`. -/
def utf8Bytes (text : Text) : Nat :=
  (text.map Char.utf8Size).sum

namespace AuditFiles

variable (json : JsonModule) (config : AuditConfig) (files : AuditFiles)

/-- The text of a file of events. -/
def textOf (events : List JsonEvent) : Text :=
  events.flatMap fun event : JsonEvent => json.dumps (.dict event.1) ++ ['\n']

/-- A live file with events from the time before the chain, or no file, and a process. -/
def start (legacy : List JsonEvent) (maxBytes : Int) : AuditFiles where
  rotated := ∅
  live := if legacy.isEmpty then none else some (textOf json legacy)
  splits := false
  maxBytes := maxBytes.toNat
  process := some (.str genesis)
  entries := []

/-- `_rotated_paths()`; the suffix, which the glob does not escape, has no `*`, `?` or `[`. -/
def rotatedPaths : List Text :=
  sortedNames files.rotated.keys

/-- The lines of a file, if it is there. -/
def linesOf (text : Option Text) : List AuditLine :=
  (readlines (text.getD [])).map json.readLine

/-- The lines of all segments, in the order in which `verify` reads them. -/
def lines : List AuditLine :=
  (files.rotatedPaths.flatMap fun path => linesOf json (files.rotated.lookup path)) ++
    linesOf json files.live

/-- The live file is not empty and does not end with a line break. -/
def unterminated : Bool :=
  (files.live.bind List.getLast?).any fun c => c != '\n'

/-- `_rotated_path_for(when)`. -/
def rotatedPathFor (now : Time) : Text :=
  config.firstFree now.stamp files.rotated.keys files.rotated.keys.length 0

/-- The live file is there and has reached the limit. -/
def rotates : Bool :=
  files.live.any fun text => 0 < files.maxBytes && files.maxBytes ≤ utf8Bytes text

/-- `_maybe_rotate_locked()`. -/
def maybeRotate (now : Time) : AuditFiles :=
  if files.rotates then
    { files with
      rotated := files.rotated.insert (files.rotatedPathFor config now) (files.live.getD [])
      live := none }
  else files

/-- Writing behind the live file, which is made if it is missing. -/
def write (text : Text) : AuditFiles :=
  { files with live := some (files.live.getD [] ++ text) }

/-- A new process on the same files, unless the live file is no UTF-8. -/
def restart (maxBytes : Int) : Option AuditFiles :=
  if files.splits then none
  else some { files with
    maxBytes := maxBytes.toNat
    process := some (loadLastHash (.str genesis) (files.lines json)) }

/-- `append(event)`. -/
def append (event : JsonEvent) (eventId : Text) (now : Time) : Option AuditFiles :=
  files.process.map fun lastHash =>
    let record := config.chained lastHash event eventId
    let written := (files.maybeRotate config now).write (json.dumps (.dict record) ++ ['\n'])
    { written with
      process := some ((record.get "hash").getD .null)
      entries := files.entries ++ [.event record] }

/-- `append(event)` that crashes behind the first `kept` characters of its line, and within
the bytes of the next one if `splits`. -/
def tear (event : JsonEvent) (eventId : Text) (now : Time) (kept : Nat) (splits : Bool) :
    Option AuditFiles :=
  files.process.bind fun lastHash =>
    let record := config.chained lastHash event eventId
    let line := json.dumps (.dict record)
    if splits && !((line.drop kept).head?.any fun c => 1 < c.utf8Size) then none
    else
      let written := (files.maybeRotate config now).write (line.take kept)
      some { written with
        splits
        process := none
        entries := files.entries ++ [.torn record (line.take kept)] }

/-- `append(event)` that raises while it prints the event. -/
def refuse (now : Time) : Option AuditFiles :=
  files.process.map fun _ => files.maybeRotate config now

/-- `iter_filtered(…)`, unless it raises `UnicodeDecodeError`. -/
def iterFiltered (query : AuditQuery) : Option (List Value) :=
  if files.splits then none
  else
    let rotated := if query.includeRotated then
      files.rotatedPaths.reverse.map files.rotated.lookup else []
    some (query.iterLines 0 ((files.live :: rotated).flatMap fun text =>
      (linesOf json text).reverse))

/-- `verify()`, unless it raises `UnicodeDecodeError`. -/
def verify : Option (Bool × Int) :=
  if files.splits then none else some (config.verifyLines genesis false 0 (files.lines json))

end AuditFiles

/-- The operations on the files. -/
inductive FileOp where
  | append (event : JsonEvent) (eventId : Text) (now : Time)
  | tear (event : JsonEvent) (eventId : Text) (now : Time) (kept : Nat) (splits : Bool)
  | refuse (now : Time)
  | restart (maxBytes : Int)

/-- What an operation makes of the files, unless it is impossible. -/
def AuditFiles.apply (json : JsonModule) (config : AuditConfig) (files : AuditFiles) :
    FileOp → Option AuditFiles
  | .append event eventId now => files.append json config event eventId now
  | .tear event eventId now kept splits => files.tear json config event eventId now kept splits
  | .refuse now => files.refuse config now
  | .restart maxBytes => files.restart json maxBytes

/-- One operation on the files. -/
def FileStep (json : JsonModule) (config : AuditConfig) : System AuditFiles FileOp :=
  fun source op target => source.apply json config op = some target

/-! ## Reading behind what is there -/

/-- Behind a line break a new line begins. -/
theorem linesAfter_append {first : Text} (ended : first.getLast? = some '\n')
    (letters second : Text) :
    linesAfter letters (first ++ second) = linesAfter letters first ++ linesAfter [] second := by
  induction first generalizing letters with
  | nil => cases ended
  | cons c rest ih =>
      rw [List.cons_append, linesAfter, linesAfter]
      cases rest with
      | nil =>
          cases ended
          rfl
      | cons next rest =>
          rw [List.getLast?_cons_cons] at ended
          split
          · rw [ih ended, List.cons_append]
          · exact ih ended _

theorem linesAfter_of_not_mem {line : Text} (noBreak : '\n' ∉ line) (letters rest : Text) :
    linesAfter letters (line ++ rest) = linesAfter (line.reverse ++ letters) rest := by
  induction line generalizing letters with
  | nil => rfl
  | cons c line ih =>
      rw [List.mem_cons, not_or] at noBreak
      rw [List.cons_append, linesAfter, if_neg (Ne.symm noBreak.1), ih noBreak.2,
        List.reverse_cons, List.append_assoc]
      rfl

/-- The text of a file that ends with a line break, if it is not empty. -/
structure Ended (text : Text) : Prop where
  noReturn : '\r' ∉ text
  ended : text = [] ∨ text.getLast? = some '\n'

/-- Behind such a text the lines are read on their own. -/
theorem Ended.readlines_append {first second : Text} (ended : Ended first)
    (noReturn : '\r' ∉ second) :
    readlines (first ++ second) = readlines first ++ readlines second := by
  obtain ⟨noReturnFirst, rfl | last⟩ := ended
  · rfl
  · have both : '\r' ∉ first ++ second := by
      rw [List.mem_append, not_or]
      exact ⟨noReturnFirst, noReturn⟩
    unfold readlines
    rw [universalNewlines_of_no_return both, universalNewlines_of_no_return noReturnFirst,
      universalNewlines_of_no_return noReturn]
    exact linesAfter_append last _ _

/-- A printed text is one line. -/
theorem readlines_line {line : Text} (noReturn : '\r' ∉ line) (noBreak : '\n' ∉ line) :
    readlines (line ++ ['\n']) = [line] := by
  have kept : '\r' ∉ line ++ ['\n'] := by simpa using noReturn
  rw [readlines, universalNewlines_of_no_return kept, linesAfter_of_not_mem noBreak]
  simp [linesAfter]

/-- A part of it is a line, if it is not empty. -/
theorem readlines_fragment {fragment : Text} (noReturn : '\r' ∉ fragment)
    (noBreak : '\n' ∉ fragment) :
    readlines fragment = if fragment = [] then [] else [fragment] := by
  rw [readlines, universalNewlines_of_no_return noReturn]
  have ended := linesAfter_of_not_mem noBreak [] []
  rw [List.append_nil, List.append_nil] at ended
  rw [ended, linesAfter]
  simp

/-! ## The line of a record -/

/-- Printed texts have no line breaks. -/
theorem Printed.noBreak {text : Text} (printed : Printed text) : '\r' ∉ text ∧ '\n' ∉ text := by
  constructor
  · intro member
    exact absurd (printed.visible _ member) (by decide)
  · intro member
    exact absurd (printed.visible _ member) (by decide)

/-- Stripping a text that begins with a bracket only takes from its end. -/
theorem strip_bracket (rest : Text) : ∃ begun blank, strip ('{' :: rest) = '{' :: begun ∧
    rest = begun ++ blank := by
  have head : ('{' :: rest).dropWhile isSpace = '{' :: rest := rfl
  have dropped : strip ('{' :: rest) = ('{' :: rest).rdropWhile isSpace := by
    rw [strip, head]
    rfl
  obtain ⟨blank, whole⟩ := List.rdropWhile_prefix isSpace (l := '{' :: rest)
  rw [← dropped] at whole
  cases stripped : strip ('{' :: rest) with
  | nil =>
      rw [dropped, List.rdropWhile_eq_nil_iff] at stripped
      exact absurd (stripped '{' List.mem_cons_self) (by decide)
  | cons c begun =>
      rw [stripped, List.cons_append] at whole
      obtain ⟨rfl, same⟩ := List.cons.inj whole
      exact ⟨begun, blank, rfl, same.symm⟩

theorem strip_bracketed (body : Text) : strip ('{' :: body ++ ['}']) = '{' :: body ++ ['}'] := by
  apply strip_eq_self_iff.mpr
  rw [List.getLast?_concat]
  constructor
  · rintro c ⟨⟩
    rfl
  · rintro c ⟨⟩
    rfl

namespace JsonModule

variable (json : JsonModule) {record : Mapping}

theorem printed_line (good : Value.isJsonEntries record = true) :
    Printed (json.dumps (.dict record)) :=
  json.printed_dumps (.dict record) good

/-- The text between the brackets of a record's line. -/
theorem exists_body (good : Value.isJsonEntries record = true) :
    ∃ body, json.dumps (.dict record) = '{' :: body ++ ['}'] ∧ Closed body :=
  ⟨_, rfl, (json.printed_dumpsEntries record good .nil).scan 0⟩

/-- A text that is no document is malformed. -/
theorem readLine_malformed {line begun : Text} (stripped : strip line = '{' :: begun)
    (none : ¬Document ('{' :: begun)) : json.readLine line = .malformed := by
  rw [readLine, stripped]
  cases read : json.loads ('{' :: begun) with
  | none => rfl
  | some value => exact absurd (json.document_of_loads read) none

/-- A whole line is read as the record. -/
theorem readLine_line (good : Value.isJsonEntries record = true) :
    json.readLine (json.dumps (.dict record)) = .json (.dict record) := by
  obtain ⟨body, line, -⟩ := json.exists_body good
  have read : json.loads ('{' :: body ++ ['}']) = some (.dict record) := by
    rw [← line]
    exact json.loads_dumps good
  rw [line, readLine, strip_bracketed, read]
  rfl

/-- A proper beginning of a line is malformed. -/
theorem readLine_fragment (good : Value.isJsonEntries record = true) {fragment rest : Text}
    (cut : fragment ++ rest = json.dumps (.dict record)) (nonempty : fragment ≠ [])
    (proper : rest ≠ []) : json.readLine fragment = .malformed := by
  obtain ⟨body, line, closed⟩ := json.exists_body good
  cases fragment with
  | nil => exact absurd rfl nonempty
  | cons c begun =>
      rw [line] at cut
      obtain ⟨rfl, -⟩ := List.cons.inj cut
      obtain ⟨shown, blank, stripped, rfl⟩ := strip_bracket begun
      have whole : '{' :: shown ++ (blank ++ rest) = '{' :: body ++ ['}'] := by
        rw [← cut]
        simp
      have left := List.append_ne_nil_of_right_ne_nil blank proper
      apply json.readLine_malformed stripped
      intro document
      exact not_closed_of_begun closed (List.cons_ne_nil _ shown) left whole document.closed

/-- A line glued to the beginning of a line is malformed. -/
theorem readLine_glued {next : Mapping} (good : Value.isJsonEntries record = true)
    (goodNext : Value.isJsonEntries next = true) {fragment rest : Text}
    (cut : fragment ++ rest = json.dumps (.dict record)) (nonempty : fragment ≠ []) :
    json.readLine (fragment ++ json.dumps (.dict next)) = .malformed := by
  obtain ⟨body, line, -⟩ := json.exists_body good
  obtain ⟨nextBody, nextLine, -⟩ := json.exists_body goodNext
  have nextClosed : Closed ('{' :: (nextBody ++ ['}'])) := by
    rw [← List.cons_append, ← nextLine]
    exact (json.printed_line goodNext).scan 0
  cases fragment with
  | nil => exact absurd rfl nonempty
  | cons c begun =>
      rw [line] at cut
      obtain ⟨rfl, -⟩ := List.cons.inj cut
      have glued : '{' :: begun ++ json.dumps (.dict next) =
          '{' :: (begun ++ '{' :: nextBody) ++ ['}'] := by
        rw [nextLine]
        simp
      have stripped : strip ('{' :: begun ++ json.dumps (.dict next)) =
          '{' :: (begun ++ '{' :: (nextBody ++ ['}'])) := by
        rw [glued, strip_bracketed]
        simp
      apply json.readLine_malformed stripped
      intro document
      by_cases whole : Closed ('{' :: begun)
      · exact not_document_append whole document
      · exact not_closed_append whole nextClosed document.closed

end JsonModule

end DataOlympus
