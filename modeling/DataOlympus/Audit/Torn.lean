import DataOlympus.Audit.Files

/-!
# Torn lines

A crash within an append leaves a part of a line.  If the next append starts a new file, only
that line is lost.  If it writes behind the torn line, the two are glued together, and the first
event after the crash is lost with it.
-/

namespace DataOlympus

open Chain Json Lines Transition

namespace AuditEntry

variable (json : JsonModule)

/-- The lines of an entry. -/
def lines : AuditEntry → List AuditLine
  | .event record => [.json (.dict record)]
  | .torn record fragment =>
      if fragment = [] then []
      else if fragment = json.dumps (.dict record) then [.json (.dict record)]
      else [.malformed]

/-- The record that is read back. -/
def read : AuditEntry → Option Mapping
  | .event record => some record
  | .torn record fragment => if fragment = json.dumps (.dict record) then some record else none

end AuditEntry

/-- The values of the events from the time before the chain. -/
def legacyValues (legacy : List JsonEvent) : List Value :=
  legacy.map fun event : JsonEvent => Value.dict event.1

/-- What `verify` says of the entries: the first line that was torn within its text. -/
def verdict (json : JsonModule) (index : Nat) : List AuditEntry → Bool × Int
  | [] => (true, -1)
  | .event _ :: rest => verdict json (index + 1) rest
  | .torn record fragment :: rest =>
      if fragment = [] then verdict json index rest
      else if fragment = json.dumps (.dict record) then verdict json (index + 1) rest
      else (false, index)

/-- A rotation gives its segment the last name. -/
def AuditFiles.Ascends (config : AuditConfig) (files : AuditFiles) (now : Time) : Prop :=
  files.rotates = true →
    ∀ path ∈ files.rotated.keys, nameLe (files.rotatedPathFor config now) path = false

/-- Nothing is written behind a torn line, and no character is split. -/
def FileOp.Spares (config : AuditConfig) (files : AuditFiles) : FileOp → Prop
  | append _ _ now =>
      files.Ascends config now ∧ (files.unterminated = true → files.rotates = true)
  | tear _ _ now _ splits =>
      files.Ascends config now ∧ (files.unterminated = true → files.rotates = true) ∧
        splits = false
  | refuse now => files.Ascends config now
  | restart _ => True

variable {json : JsonModule} {config : AuditConfig}

/-! ## Records -/

theorem isJson_ofText (text : Text) : (Value.str (PyStr.ofText text)).isJson = true :=
  PyStr.encodable_ofText text

theorem isJsonEntries_chained (config : AuditConfig) (event : JsonEvent) (eventId : Text) {last : Value}
    (printed : last.isJson = true) :
    Value.isJsonEntries (config.chained last event eventId) = true := by
  unfold AuditConfig.chained
  apply Value.isJsonEntries_set _ _ (isJson_ofText _)
  apply Value.isJsonEntries_set _ _ printed
  exact Value.isJsonEntries_set event.2 _ (isJson_ofText _)

theorem dumps_ne_nil (record : Mapping) : json.dumps (.dict record) ≠ [] :=
  List.cons_ne_nil _ _

/-- The lines of a torn entry are those of its fragment. -/
theorem lines_torn {record : Mapping} (good : Value.isJsonEntries record = true) (kept : Nat) :
    (readlines ((json.dumps (.dict record)).take kept)).map json.readLine =
      AuditEntry.lines json (.torn record ((json.dumps (.dict record)).take kept)) := by
  have printed := json.printed_line good
  have noReturn : '\r' ∉ (json.dumps (.dict record)).take kept :=
    fun member => printed.noBreak.1 (List.mem_of_mem_take member)
  have noBreak : '\n' ∉ (json.dumps (.dict record)).take kept :=
    fun member => printed.noBreak.2 (List.mem_of_mem_take member)
  rw [readlines_fragment noReturn noBreak, AuditEntry.lines]
  by_cases empty : (json.dumps (.dict record)).take kept = []
  · rw [if_pos empty, if_pos empty]
    rfl
  · rw [if_neg empty, if_neg empty]
    have cut := List.take_append_drop kept (json.dumps (.dict record))
    by_cases whole : (json.dumps (.dict record)).take kept = json.dumps (.dict record)
    · rw [if_pos whole, whole, List.map_singleton, json.readLine_line good]
    · rw [if_neg whole, List.map_singleton, json.readLine_fragment good cut empty]
      intro nothing
      rw [nothing, List.append_nil] at cut
      exact whole cut

/-- The line of an event. -/
theorem lines_event {record : Mapping} (good : Value.isJsonEntries record = true) :
    (readlines (json.dumps (.dict record) ++ ['\n'])).map json.readLine =
      AuditEntry.lines json (.event record) := by
  have printed := json.printed_line good
  rw [readlines_line printed.noBreak.1 printed.noBreak.2, List.map_singleton,
    json.readLine_line good]
  rfl

theorem noReturn_line (json : JsonModule) {record : Mapping} (good : Value.isJsonEntries record = true) :
    '\r' ∉ json.dumps (.dict record) ++ ['\n'] := by
  simpa using (json.printed_line good).noBreak.1

/-- A file of events is read as they are. -/
theorem lines_textOf (json : JsonModule) (events : List JsonEvent) :
    '\r' ∉ AuditFiles.textOf json events ∧
      (readlines (AuditFiles.textOf json events)).map json.readLine =
        (legacyValues events).map .json := by
  induction events with
  | nil => exact ⟨List.not_mem_nil, rfl⟩
  | cons event rest ih =>
      obtain ⟨noReturn, read⟩ := ih
      have first := noReturn_line json event.2
      have ended : Ended (json.dumps (.dict event.1) ++ ['\n']) :=
        ⟨first, .inr List.getLast?_concat⟩
      have text : AuditFiles.textOf json (event :: rest) =
          (json.dumps (.dict event.1) ++ ['\n']) ++ AuditFiles.textOf json rest :=
        List.flatMap_cons
      rw [text]
      constructor
      · rw [List.mem_append, not_or]
        exact ⟨first, noReturn⟩
      · rw [ended.readlines_append noReturn, List.map_append, read, lines_event event.2]
        rfl

namespace AuditFiles

variable {files : AuditFiles} {now : Time}

/-! ## Writing -/

/-- A rotation that gives its segment the last name moves no line. -/
theorem lines_maybeRotate (ascends : files.Ascends config now) :
    (files.maybeRotate config now).lines json = files.lines json := by
  unfold maybeRotate
  split
  · rename_i rotates
    have inserted := AuditConfig.flatMap_insert_last files.rotated (linesOf json)
      (files.live.getD []) (config.firstFree_not_mem now.stamp files.rotated.keys)
      (ascends rotates)
    simp only [lines, rotatedPaths, rotatedPathFor]
    rw [inserted]
    simp [linesOf, readlines, linesAfter]
  · rfl

@[simp]
theorem entries_maybeRotate : (files.maybeRotate config now).entries = files.entries := by
  unfold maybeRotate
  split <;> rfl

@[simp]
theorem process_maybeRotate : (files.maybeRotate config now).process = files.process := by
  unfold maybeRotate
  split <;> rfl

/-- The live file ends with a line break when something is written. -/
theorem ended_maybeRotate (config : AuditConfig) (now : Time) (noReturn : ∀ text ∈ files.live, '\r' ∉ text)
    (spares : files.unterminated = true → files.rotates = true) :
    Ended ((files.maybeRotate config now).live.getD []) := by
  unfold maybeRotate
  split
  · exact ⟨List.not_mem_nil, .inl rfl⟩
  · rename_i stays
    have terminated := mt spares stays
    unfold unterminated at terminated
    cases live : files.live with
    | none => exact ⟨List.not_mem_nil, .inl rfl⟩
    | some text =>
        refine ⟨noReturn text live, ?_⟩
        rw [live, Option.bind_some] at terminated
        cases last : text.getLast? with
        | none => exact .inl (List.getLast?_eq_none_iff.mp last)
        | some c =>
            rw [last] at terminated
            have same : c = '\n' := by simpa using terminated
            rw [same] at last
            exact .inr last

theorem lines_write (json : JsonModule) (ended : Ended (files.live.getD [])) {text : Text} (noReturn : '\r' ∉ text) :
    (files.write text).lines json = files.lines json ++ (readlines text).map json.readLine := by
  simp only [lines, write, rotatedPaths, linesOf, Option.getD_some]
  rw [ended.readlines_append noReturn, List.map_append, List.append_assoc]

theorem noReturn_write (ended : Ended (files.live.getD [])) {text : Text} (noReturn : '\r' ∉ text) :
    ∀ other ∈ (files.write text).live, '\r' ∉ other := by
  rintro _ ⟨⟩
  rw [List.mem_append, not_or]
  exact ⟨ended.noReturn, noReturn⟩

/-! ## Runs -/

/-- The lines are those of the entries, and the process goes on from the last record that is
read back. -/
structure Sound (json : JsonModule) (config : AuditConfig) (legacy : List JsonEvent)
    (files : AuditFiles) : Prop where
  lines : files.lines json =
    (legacyValues legacy).map .json ++ files.entries.flatMap (AuditEntry.lines json)
  whole : files.splits = false
  noReturn : ∀ text ∈ files.live, '\r' ∉ text
  intact : config.Intact genesis (files.entries.filterMap (AuditEntry.read json))
  process : ∀ hash ∈ files.process, some hash = Chain.lastHash Mapping.ownHash
    (some (.str genesis)) (files.entries.filterMap (AuditEntry.read json))

end AuditFiles

theorem loadLastHash_append (last : Value) (first second : List AuditLine) :
    loadLastHash last (first ++ second) = loadLastHash (loadLastHash last first) second := by
  induction first generalizing last with
  | nil => rfl
  | cons line rest ih =>
      rw [List.cons_append]
      cases line with
      | json value =>
          rw [loadLastHash, loadLastHash]
          cases value.hashedEvent with
          | none => exact ih _
          | some event => exact ih _
      | _ => exact ih _

/-- An entry is read back as its record, or has no line that can be read. -/
theorem AuditEntry.read_cases (json : JsonModule) (entry : AuditEntry) :
    (∃ record, entry.read json = some record ∧ entry.lines json = [.json (.dict record)]) ∨
      (entry.read json = none ∧ (entry.lines json = [] ∨ entry.lines json = [.malformed])) := by
  cases entry with
  | event record => exact .inl ⟨record, rfl, rfl⟩
  | torn record fragment =>
      by_cases whole : fragment = json.dumps (.dict record)
      · have something : fragment ≠ [] := whole ▸ dumps_ne_nil record
        exact .inl ⟨record, if_pos whole, (if_neg something).trans (if_pos whole)⟩
      · by_cases nothing : fragment = []
        · exact .inr ⟨if_neg whole, .inl (if_pos nothing)⟩
        · exact .inr ⟨if_neg whole, .inr ((if_neg nothing).trans (if_neg whole))⟩

/-- The last hash of the lines is that of the last record that is read back. -/
theorem loadLastHash_entries (json : JsonModule) (nonempty : ∀ body, config.digest body ≠ [])
    {legacy : List Value} (unhashed : ∀ value ∈ legacy, value.hashedEvent = none)
    {entries : List AuditEntry}
    (signed : ∀ record ∈ entries.filterMap (AuditEntry.read json), config.Signed record) :
    some (loadLastHash (.str genesis)
        (legacy.map .json ++ entries.flatMap (AuditEntry.lines json))) =
      Chain.lastHash Mapping.ownHash (some (.str genesis))
        (entries.filterMap (AuditEntry.read json)) := by
  rw [loadLastHash_append, AuditConfig.loadLastHash_legacy unhashed]
  induction entries using List.reverseRecOn with
  | nil => rfl
  | append_singleton entries entry ih =>
      rw [List.filterMap_append, List.forall_mem_append] at signed
      rw [List.flatMap_append, List.flatMap_singleton, List.filterMap_append]
      rcases entry.read_cases json with ⟨record, isRead, shown⟩ | ⟨notRead, shown⟩
      · have single : [entry].filterMap (AuditEntry.read json) = [record] := by
          simp [isRead]
        rw [single, List.forall_mem_singleton] at signed
        rw [single, shown, lastHash_concat,
          AuditConfig.loadLastHash_concat (signed.2.hashedEvent nonempty) signed.2]
        exact signed.2.symm
      · have none : [entry].filterMap (AuditEntry.read json) = [] := by
          simp [notRead]
        rw [none, List.append_nil, loadLastHash_append, ← ih signed.1]
        rcases shown with shown | shown
        · rw [shown]
          rfl
        · rw [shown]
          rfl

/-! ## Steps -/

namespace AuditFiles.Sound

variable {legacy : List JsonEvent} {files : AuditFiles} {now : Time}

theorem start (legacy : List JsonEvent) (maxBytes : Int) :
    (AuditFiles.start json legacy maxBytes).Sound json config legacy := by
  obtain ⟨noReturn, read⟩ := lines_textOf json legacy
  refine ⟨?_, rfl, ?_, ⟨.nil _, List.forall_mem_nil _⟩, ?_⟩
  · cases legacy with
    | nil => rfl
    | cons event rest =>
        rw [← read]
        exact (List.append_nil _).symm
  · cases legacy with
    | nil => exact nofun
    | cons event rest =>
        rintro _ ⟨⟩
        exact noReturn
  · rintro _ ⟨⟩
    rfl

/-- A rotation keeps everything in place. -/
theorem maybeRotate (sound : files.Sound json config legacy) (ascends : files.Ascends config now) :
    (files.maybeRotate config now).Sound json config legacy := by
  have lines := sound.lines
  rw [← lines_maybeRotate ascends] at lines
  unfold AuditFiles.maybeRotate at lines ⊢
  split
  · rename_i rotates
    rw [if_pos rotates] at lines
    exact ⟨lines, sound.whole, nofun, sound.intact, sound.process⟩
  · exact sound

/-- The hash that a process goes on from is a text. -/
theorem printed (sound : files.Sound json config legacy) {last : Value}
    (running : files.process = some last) : last.isJson = true := by
  have hash := sound.process last running
  have signed := sound.intact.signed
  rcases List.eq_nil_or_concat (files.entries.filterMap (AuditEntry.read json)) with
    none | ⟨before, record, records⟩
  · rw [none] at hash
    cases hash
    rfl
  · rw [records, List.concat_eq_append, lastHash_concat] at hash
    have here : config.Signed record := by
      apply signed
      simp [records]
    cases hash.trans here
    exact isJson_ofText _

/-- What an append writes joins the entries. -/
theorem write (sound : files.Sound json config legacy) (ended : Ended (files.live.getD []))
    {text : Text} (noReturn : '\r' ∉ text) {entry : AuditEntry}
    (shown : (readlines text).map json.readLine = entry.lines json) {target : AuditFiles}
    (rotated : target.rotated = files.rotated) (live : target.live = (files.write text).live)
    (whole : target.splits = false) (entries : target.entries = files.entries ++ [entry])
    (intact : config.Intact genesis (target.entries.filterMap (AuditEntry.read json)))
    (last : ∀ hash ∈ target.process, some hash = Chain.lastHash Mapping.ownHash
      (some (.str genesis)) (target.entries.filterMap (AuditEntry.read json))) :
    target.Sound json config legacy where
  lines := by
    have written := lines_write json ended noReturn
    have same : target.lines json = (files.write text).lines json := by
      unfold AuditFiles.lines AuditFiles.rotatedPaths
      rw [rotated, live]
      rfl
    rw [same, written, entries, List.flatMap_append, List.flatMap_singleton, ← List.append_assoc,
      ← sound.lines, shown]
  whole := whole
  noReturn := by
    rw [live]
    exact noReturn_write ended noReturn
  intact := intact
  process := last

/-- The record of an append continues the chain, if it is read back. -/
theorem intact_chained (sound : files.Sound json config legacy) {last : Value}
    (running : files.process = some last) (event : JsonEvent) (eventId : Text)
    {entry : AuditEntry}
    (isRead : ∀ record ∈ entry.read json, record = config.chained last event eventId) :
    config.Intact genesis ((files.entries ++ [entry]).filterMap (AuditEntry.read json)) := by
  rw [List.filterMap_append]
  cases here : entry.read json with
  | none =>
      have nothing : [entry].filterMap (AuditEntry.read json) = [] := by simp [here]
      rw [nothing, List.append_nil]
      exact sound.intact
  | some record =>
      have single : [entry].filterMap (AuditEntry.read json) = [record] := by simp [here]
      obtain rfl := isRead record here
      rw [single]
      constructor
      · apply sound.intact.linked.concat
        rw [AuditConfig.prevHash_chained]
        exact sound.process last running
      · rw [List.forall_mem_append, List.forall_mem_singleton]
        exact ⟨sound.intact.signed, AuditConfig.signed_chained _ _ _⟩

theorem append (sound : files.Sound json config legacy) (ascends : files.Ascends config now)
    (spares : files.unterminated = true → files.rotates = true) {event : JsonEvent}
    {eventId : Text} {target : AuditFiles}
    (appended : files.append json config event eventId now = some target) :
    target.Sound json config legacy := by
  obtain ⟨last, running, rfl⟩ := Option.map_eq_some_iff.mp appended
  have good := isJsonEntries_chained config event eventId (sound.printed running)
  have signed := config.signed_chained last event eventId
  have ended := ended_maybeRotate config now sound.noReturn spares
  have rotated := sound.maybeRotate ascends
  refine rotated.write ended (noReturn_line json good) (lines_event good) ?_ ?_ ?_ ?_ ?_ ?_
  · rfl
  · rfl
  · exact rotated.whole
  · rw [entries_maybeRotate]
  · apply sound.intact_chained running event eventId
    rintro _ ⟨⟩
    rfl
  · rintro hash ⟨⟩
    rw [List.filterMap_append]
    refine Eq.trans ?_ (lastHash_concat _ _ _).symm
    change some ((config.chained last event eventId).ownHash.getD .null) = _
    rw [signed]
    rfl

theorem tear (sound : files.Sound json config legacy) (ascends : files.Ascends config now)
    (spares : files.unterminated = true → files.rotates = true) {event : JsonEvent}
    {eventId : Text} {kept : Nat} {target : AuditFiles}
    (torn : files.tear json config event eventId now kept false = some target) :
    target.Sound json config legacy := by
  obtain ⟨last, running, made⟩ := Option.bind_eq_some_iff.mp torn
  cases made
  have good := isJsonEntries_chained config event eventId (sound.printed running)
  have ended := ended_maybeRotate config now sound.noReturn spares
  have rotated := sound.maybeRotate ascends
  have noReturn : '\r' ∉ (json.dumps (.dict (config.chained last event eventId))).take kept :=
    fun member => (json.printed_line good).noBreak.1 (List.mem_of_mem_take member)
  refine rotated.write ended noReturn (lines_torn good kept) ?_ ?_ ?_ ?_ ?_ ?_
  · rfl
  · rfl
  · rfl
  · rw [entries_maybeRotate]
  · apply sound.intact_chained running event eventId
    intro record isRead
    unfold AuditEntry.read at isRead
    dsimp only at isRead
    split at isRead
    · cases isRead
      rfl
    · cases isRead
  · exact nofun

/-- A new process goes on from the last record that is read back. -/
theorem restart (sound : files.Sound json config legacy)
    (nonempty : ∀ body, config.digest body ≠ [])
    (unhashed : ∀ value ∈ legacyValues legacy, value.hashedEvent = none) {maxBytes : Int}
    {target : AuditFiles} (started : files.restart json maxBytes = some target) :
    target.Sound json config legacy := by
  unfold AuditFiles.restart at started
  split_ifs at started
  cases started
  have loaded := loadLastHash_entries json nonempty unhashed sound.intact.signed
  rw [← sound.lines] at loaded
  refine ⟨sound.lines, sound.whole, sound.noReturn, sound.intact, ?_⟩
  rintro _ ⟨⟩
  exact loaded

end AuditFiles.Sound

/-- Every step that writes nothing behind a torn line keeps the lines those of the entries. -/
theorem FileStep.sound (nonempty : ∀ body, config.digest body ≠ []) {legacy : List JsonEvent}
    (unhashed : ∀ value ∈ legacyValues legacy, value.hashedEvent = none) :
    (System.restrict (FileStep json config) (FileOp.Spares config)).Preserves
      (AuditFiles.Sound json config legacy) := by
  rintro source op target ⟨spares, stepped⟩ before
  cases op with
  | append event eventId now => exact before.append spares.1 spares.2 stepped
  | tear event eventId now kept splits =>
      obtain ⟨ascends, ends, rfl⟩ := spares
      exact before.tear ascends ends stepped
  | refuse now =>
      obtain ⟨last, running, rfl⟩ := Option.map_eq_some_iff.mp stepped
      exact before.maybeRotate spares
  | restart maxBytes => exact before.restart nonempty unhashed stepped

/-! ## Verification -/

/-- Records without a hash are passed over. -/
theorem verifyLines_legacy {legacy : List Value}
    (unhashed : ∀ value ∈ legacy, value.hashedEvent = none) (prev : PyStr) (index : Nat)
    (rest : List AuditLine) :
    config.verifyLines prev false index (legacy.map .json ++ rest) =
      config.verifyLines prev false (index + legacy.length) rest := by
  induction legacy generalizing index with
  | nil => rfl
  | cons value legacy ih =>
      rw [List.forall_mem_cons] at unhashed
      rw [List.map_cons, List.cons_append, AuditConfig.verifyLines, unhashed.1]
      dsimp only
      rw [if_neg Bool.false_ne_true, ih unhashed.2, List.length_cons, Nat.add_assoc,
        Nat.add_comm 1]

/-- A signed record that names the hash before it is passed over. -/
theorem verifyLines_record (nonempty : ∀ body, config.digest body ≠ []) {prev : PyStr}
    {record : Mapping} {records : List Mapping} (intact : config.Intact prev (record :: records))
    (seen : Bool) (index : Nat) (rest : List AuditLine) :
    config.verifyLines prev seen index (.json (.dict record) :: rest) =
        config.verifyLines (PyStr.ofText (config.digest record.unsigned)) true (index + 1) rest ∧
      config.Intact (PyStr.ofText (config.digest record.unsigned)) records := by
  obtain ⟨linked, signed⟩ := intact
  rw [List.forall_mem_cons] at signed
  obtain ⟨here, later⟩ := signed
  cases linked with
  | cons names further =>
      have checked : ((record.get "prev_hash").any (Value.isStr prev) &&
          (record.get "hash").any
            (Value.isStr (PyStr.ofText (config.digest record.unsigned)))) = true := by
        rw [Bool.and_eq_true, Option.any_isStr_iff, Option.any_isStr_iff]
        exact ⟨names, here⟩
      rw [here] at further
      refine ⟨?_, further, later⟩
      rw [AuditConfig.verifyLines, here.hashedEvent nonempty]
      dsimp only
      rw [checked, if_pos rfl]

/-- The lines of the entries verify up to the first that is torn. -/
theorem verifyLines_entries (json : JsonModule) (nonempty : ∀ body, config.digest body ≠ [])
    {entries : List AuditEntry} {prev : PyStr}
    (intact : config.Intact prev (entries.filterMap (AuditEntry.read json))) (seen : Bool)
    (index : Nat) :
    config.verifyLines prev seen index (entries.flatMap (AuditEntry.lines json)) =
      verdict json index entries := by
  induction entries generalizing prev seen index with
  | nil => rfl
  | cons entry rest ih =>
      rw [List.flatMap_cons]
      cases entry with
      | event record =>
          have single : (AuditEntry.event record :: rest).filterMap (AuditEntry.read json) =
              record :: rest.filterMap (AuditEntry.read json) := rfl
          rw [single] at intact
          obtain ⟨passes, later⟩ := verifyLines_record nonempty intact seen index
            (rest.flatMap (AuditEntry.lines json))
          exact passes.trans (ih later true (index + 1))
      | torn record fragment =>
          by_cases nothing : fragment = []
          · have unread : (AuditEntry.torn record fragment).read json = none := by
              apply if_neg
              rw [nothing]
              exact (dumps_ne_nil record).symm
            rw [List.filterMap_cons_none unread] at intact
            rw [verdict, if_pos nothing, AuditEntry.lines, if_pos nothing]
            exact ih intact seen index
          · rw [verdict, if_neg nothing, AuditEntry.lines, if_neg nothing]
            by_cases whole : fragment = json.dumps (.dict record)
            · have isRead : (AuditEntry.torn record fragment).read json = some record :=
                if_pos whole
              rw [List.filterMap_cons_some isRead] at intact
              obtain ⟨passes, later⟩ := verifyLines_record nonempty intact seen index
                (rest.flatMap (AuditEntry.lines json))
              rw [if_pos whole, if_pos whole]
              exact passes.trans (ih later true (index + 1))
            · rw [if_neg whole, if_neg whole]
              rfl

/-! ## Reading -/

/-- Without filters every value is yielded. -/
theorem iterLines_everything (scanned : Nat) (lines : List AuditLine) :
    AuditQuery.everything.iterLines scanned lines = records lines := by
  induction lines generalizing scanned with
  | nil => rfl
  | cons line rest ih =>
      cases line with
      | blank => exact ih scanned
      | malformed => exact ih (scanned + 1)
      | json value =>
          have yielded : AuditQuery.everything.iterLines scanned (.json value :: rest) =
              value :: AuditQuery.everything.iterLines (scanned + 1) rest := by
            cases value <;> rfl
          rw [yielded, ih]
          rfl

/-- With the rotated segments, all lines are read, the last one first. -/
theorem iterFiltered_everything {files : AuditFiles} (whole : files.splits = false) :
    files.iterFiltered json .everything = some (records (files.lines json)).reverse := by
  have order : ((files.live :: files.rotatedPaths.reverse.map files.rotated.lookup).flatMap
      fun text => (AuditFiles.linesOf json text).reverse) = (files.lines json).reverse := by
    rw [AuditFiles.lines, List.reverse_append, List.reverse_flatMap, List.flatMap_cons,
      List.flatMap_map]
    rfl
  unfold AuditFiles.iterFiltered
  rw [whole, if_neg Bool.false_ne_true]
  dsimp only
  rw [iterLines_everything]
  change some (records ((files.live :: files.rotatedPaths.reverse.map files.rotated.lookup).flatMap
    fun text => (AuditFiles.linesOf json text).reverse)) = _
  rw [order, records, records, List.filterMap_reverse]

/-- Every event is yielded and `verify` reports the first torn line, in every run that writes
nothing behind a torn line. -/
theorem torn_append_costs_one_event (nonempty : ∀ body, config.digest body ≠ [])
    {legacy : List JsonEvent} (unhashed : ∀ value ∈ legacyValues legacy, value.hashedEvent = none)
    {maxBytes : Int} {ops : List FileOp} {files : AuditFiles}
    (run : Run (System.restrict (FileStep json config) (FileOp.Spares config))
      (.start json legacy maxBytes) ops files) :
    (∃ yielded, files.iterFiltered json .everything = some yielded ∧
      (∀ value ∈ legacyValues legacy, value ∈ yielded) ∧
      ∀ record, .event record ∈ files.entries → .dict record ∈ yielded) ∧
    files.verify json config = some (verdict json legacy.length files.entries) := by
  have sound := Run.invariant (FileStep.sound nonempty unhashed) run (.start legacy maxBytes)
  constructor
  · refine ⟨_, iterFiltered_everything sound.whole, ?_, ?_⟩
    · intro value member
      rw [List.mem_reverse, sound.lines, records_append, AuditConfig.records_legacy]
      exact List.mem_append_left _ member
    · intro record member
      rw [List.mem_reverse, sound.lines, records_append]
      apply List.mem_append_right
      rw [records, List.mem_filterMap]
      exact ⟨.json (.dict record), List.mem_flatMap.mpr ⟨_, member, List.mem_singleton_self _⟩,
        rfl⟩
  · unfold AuditFiles.verify
    rw [sound.whole, if_neg Bool.false_ne_true, sound.lines, verifyLines_legacy unhashed,
      verifyLines_entries json nonempty sound.intact]
    simp [legacyValues]

/-- What is written behind a torn line is lost with it. -/
theorem AuditFiles.lines_glued {files target : AuditFiles} {before fragment rest : Text}
    (live : files.live = some (before ++ fragment)) (ended : Ended before) {record : Mapping}
    (good : Value.isJsonEntries record = true)
    (cut : fragment ++ rest = json.dumps (.dict record)) (nonempty : fragment ≠ [])
    (stays : files.rotates = false) {last : Value} (running : files.process = some last)
    (printed : last.isJson = true) {event : JsonEvent} {eventId : Text} {now : Time}
    (appended : files.append json config event eventId now = some target) :
    target.lines json = { files with live := some before }.lines json ++ [.malformed] := by
  obtain ⟨_, same, rfl⟩ := Option.map_eq_some_iff.mp appended
  cases running.symm.trans same
  have goodNext := isJsonEntries_chained config event eventId printed
  have torn : '\r' ∉ fragment ∧ '\n' ∉ fragment := by
    obtain ⟨noReturn, noBreak⟩ := (json.printed_line good).noBreak
    rw [← cut, List.mem_append, not_or] at noReturn noBreak
    exact ⟨noReturn.1, noBreak.1⟩
  have whole := (json.printed_line goodNext).noBreak
  let text := fragment ++ json.dumps (.dict (config.chained last event eventId))
  have noReturn : '\r' ∉ text ++ ['\n'] := by simp [text, torn, whole]
  have line : readlines (text ++ ['\n']) = [text] :=
    readlines_line (by simp [text, torn, whole]) (by simp [text, torn, whole])
  let earlier : AuditFiles := { files with live := some before }
  have endedEarlier : Ended (earlier.live.getD []) := ended
  have shown : (earlier.write (text ++ ['\n'])).lines json = earlier.lines json ++
      (readlines (text ++ ['\n'])).map json.readLine := lines_write json endedEarlier noReturn
  rw [line, List.map_singleton, json.readLine_glued good goodNext cut nonempty] at shown
  rw [← shown]
  simp only [maybeRotate, stays, Bool.false_eq_true, if_false, write, live, lines, rotatedPaths,
    Option.getD_some, List.append_assoc, text, earlier]

/-! ## A torn line in front of an event -/

/-- An event without fields. -/
def emptyEvent : JsonEvent :=
  ⟨[], rfl⟩

/-- A crash behind the first character of a line, and an append after the restart. -/
def tornOps (maxBytes : Int) : List FileOp :=
  [.append emptyEvent "1".toList 0, .tear emptyEvent "2".toList 0 1 false, .restart maxBytes,
    .append emptyEvent "3".toList 0]

/-- The files after the first of these operations. -/
def tornFiles (maxBytes : Int) (count : Nat) : AuditFiles :=
  ((tornOps maxBytes).take count).foldl
    (fun files op => (files.apply sampleJson sampleConfig op).getD files) (.start sampleJson [] 0)

theorem steps_tornFiles (maxBytes : Int) :
    FileStep sampleJson sampleConfig (.start sampleJson [] 0)
        (.append emptyEvent "1".toList 0) (tornFiles maxBytes 1) ∧
      FileStep sampleJson sampleConfig (tornFiles maxBytes 1)
        (.tear emptyEvent "2".toList 0 1 false) (tornFiles maxBytes 2) ∧
      FileStep sampleJson sampleConfig (tornFiles maxBytes 2) (.restart maxBytes)
        (tornFiles maxBytes 3) ∧
      FileStep sampleJson sampleConfig (tornFiles maxBytes 3)
        (.append emptyEvent "3".toList 0) (tornFiles maxBytes 4) :=
  ⟨rfl, rfl, rfl, rfl⟩

/-- If the append after the crash rotates, only the torn event is lost. -/
theorem rotated_tear_costs_one_event : ∃ files,
    Run (System.restrict (FileStep sampleJson sampleConfig) (FileOp.Spares sampleConfig))
      (.start sampleJson [] 0) (tornOps 1) files ∧
    (∃ yielded, files.iterFiltered sampleJson .everything = some yielded ∧
      (∀ value ∈ legacyValues [], value ∈ yielded) ∧
      ∀ record, .event record ∈ files.entries → .dict record ∈ yielded) ∧
    files.verify sampleJson sampleConfig = some (verdict sampleJson 0 files.entries) := by
  have first : FileOp.Spares sampleConfig (.start sampleJson [] 0)
      (.append emptyEvent "1".toList 0) := ⟨nofun, nofun⟩
  have second : FileOp.Spares sampleConfig (tornFiles 1 1)
      (.tear emptyEvent "2".toList 0 1 false) := ⟨nofun, nofun, rfl⟩
  have fourth : FileOp.Spares sampleConfig (tornFiles 1 3) (.append emptyEvent "3".toList 0) :=
    ⟨fun _ _ member => absurd member List.not_mem_nil, fun _ => rfl⟩
  obtain ⟨one, two, three, four⟩ := steps_tornFiles 1
  have run : Run (System.restrict (FileStep sampleJson sampleConfig) (FileOp.Spares sampleConfig))
      (.start sampleJson [] 0) (tornOps 1) (tornFiles 1 4) :=
    Run.tail (Run.tail (Run.tail (Run.single ⟨first, one⟩) ⟨second, two⟩) ⟨trivial, three⟩)
      ⟨fourth, four⟩
  exact ⟨_, run, torn_append_costs_one_event (fun _ => List.cons_ne_nil _ _)
    (List.forall_mem_nil _) run⟩

/-- If it does not rotate, the first event after the crash is lost, too. -/
theorem glued_event_is_lost : ∃ files record,
    Run (FileStep sampleJson sampleConfig) (.start sampleJson [] 0) (tornOps 0) files ∧
    .event record ∈ files.entries ∧
    ∃ yielded, files.iterFiltered sampleJson .everything = some yielded ∧
      .dict record ∉ yielded := by
  obtain ⟨one, two, three, four⟩ := steps_tornFiles 0
  have run := Run.tail (Run.tail (Run.tail (Run.single one) two) three) four
  refine ⟨_, _, run, List.mem_append_right _ (List.mem_singleton_self _), _, rfl, ?_⟩
  intro member
  have only : Value.dict (sampleConfig.chained
      (.str (PyStr.ofText (sampleConfig.digest [(.str (PyStr.lit "event_id"), .str (PyStr.lit "1"))])))
      [] "3".toList) ∈ [Value.dict (sampleConfig.chained (.str genesis) [] "1".toList)] := member
  have same := congrArg (fun event => Mapping.get event "event_id")
    (Value.dict.inj (List.mem_singleton.mp only))
  exact absurd (Value.str.inj (Option.some.inj same)) (by decide)

end DataOlympus
