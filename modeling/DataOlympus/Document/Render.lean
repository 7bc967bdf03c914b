import DataOlympus.Document.Frontmatter
import DataOlympus.Python.Dict
import DataOlympus.Python.Mapping

/-!
# Rendered front matter

A memory is rendered as the YAML of its front matter between two delimiters, and its text
after them.  The emitter chooses its own line breaks, and the search for the second
delimiter goes over the lines that it emits.
-/

namespace DataOlympus

open Lines

/-- A capture envelope. -/
abbrev Envelope : Type :=
  Python.Dict PyStr PyStr

/-- The envelope as a value. -/
def Envelope.value (envelope : Envelope) : Value :=
  .dict (envelope.items.map fun item => (.str item.1, .str item.2))

/-- `frontmatter.get("capture") == capture`. -/
def Envelope.carriedBy (envelope : Envelope) (entries : Mapping) : Bool :=
  match entries.get "capture" with
  | some (.dict held) =>
      held.length = envelope.items.length && envelope.items.all fun item =>
        held.any fun entry => entry.1.isStr item.1 && entry.2.isStr item.2
  | _ => false

/-- What the front matter of a memory is made of. -/
structure MemoryFields where
  agentIdentity : PyStr
  tags : List PyStr
  evidence : List PyStr
  capture : Option Envelope
  createdAt : PyStr
  toolActor : PyStr

/-- A list of strings under a key, unless it is empty. -/
def optionalList (key : String) (items : List PyStr) : Mapping :=
  if items.isEmpty then [] else [(.str (PyStr.lit key), .list (items.map .str))]

/-- `fm`. -/
def MemoryFields.frontmatter (fields : MemoryFields) : Mapping :=
  [(.str (PyStr.lit "type"), .str (PyStr.lit "memory")),
    (.str (PyStr.lit "status"), .str (PyStr.lit "proposed")),
    (.str (PyStr.lit "created_by"), .str fields.agentIdentity),
    (.str (PyStr.lit "created_at"), .str fields.createdAt),
    (.str (PyStr.lit "generated"),
      .dict [(.str (PyStr.lit "by"), .str fields.toolActor),
        (.str (PyStr.lit "at"), .str fields.createdAt)])] ++
    optionalList "tags" fields.tags ++ optionalList "evidence" fields.evidence ++
      fields.capture.elim [] fun envelope => [(.str (PyStr.lit "capture"), envelope.value)]

/-- A document with emitted YAML between its delimiters. -/
def enclose (dumped body : Text) : Text :=
  "---\n".toList ++ (dumped ++ ("---\n".toList ++ body))

/-- The first line opens a front matter block. -/
def opensBlock (text : Text) : Bool :=
  Block.isDelimiter (text.takeWhile (· ≠ '\n'))

/-- The text with a line feed at its end. -/
def endLine (text : Text) : Text :=
  if text.getLast? = some '\n' then text else text ++ ['\n']

section Render

variable (safeDump : Mapping → Text)

/-- `_render_memory(…)`. -/
def renderMemory (fields : MemoryFields) (text : Text) : Text :=
  "---\n".toList ++ (safeDump fields.frontmatter ++ ("---\n\n".toList ++ (text ++ ['\n'])))

variable (runtime : Runtime)

/-- The front matter of the proposal that an edit replaces, `{}` if it has none. -/
def baseFrontmatter (original : Text) : Except Raised Mapping :=
  match runtime.parseFrontmatter original with
  | .ok (entries, _) => .ok entries
  | .error (.valueError _) => .ok []
  | .error raised => .error raised

/-- `reattach_capture(postimage, envelope, original)`. -/
def reattachCapture (postimage : Text) (envelope : Envelope) (original : Text) :
    Except Raised Text :=
  match runtime.parseFrontmatter postimage with
  | .error (.valueError _) => .ok postimage
  | .error raised => .error raised
  | .ok (entries, body) =>
      if opensBlock postimage then
        if envelope.carriedBy entries then .ok postimage
        else .ok (enclose (safeDump (entries.set "capture" envelope.value)) body)
      else do
        let base ← baseFrontmatter runtime original
        return enclose (safeDump (base.set "capture" envelope.value))
          ('\n' :: endLine postimage)

/-- The emitter's text ends in a line feed, and the loader reads the mapping back from it. -/
def ReadsBack (entries : Mapping) : Prop :=
  ∃ raw, safeDump entries = raw ++ ['\n'] ∧ runtime.safeLoad raw = .ok (.dict entries)

/-- No line that the emitter writes is a delimiter. -/
def Undelimited (entries : Mapping) : Prop :=
  ∀ line ∈ splitLines (safeDump entries), Block.isDelimiter line = false

end Render

namespace Block

/-- The search stops at the first delimiter. -/
theorem closing_eq_some_iff {lines inside after : List Text} :
    closing lines = some (inside, after) ↔ ∃ line, lines = inside ++ line :: after ∧
      isDelimiter line = true ∧ ∀ earlier ∈ inside, isDelimiter earlier = false := by
  induction lines generalizing inside with
  | nil => simp [closing]
  | cons first rest ih =>
      rw [closing]
      cases delimiter : isDelimiter first with
      | true =>
          simp only [if_true, Option.some.injEq, Prod.mk.injEq]
          constructor
          · rintro ⟨rfl, rfl⟩
            exact ⟨first, rfl, delimiter, List.forall_mem_nil _⟩
          · rintro ⟨line, split, closes, before⟩
            cases inside with
            | nil =>
                cases split
                exact ⟨rfl, rfl⟩
            | cons earlier inside =>
                cases split
                rw [before _ List.mem_cons_self] at delimiter
                cases delimiter
      | false =>
          simp only [Bool.false_eq_true, if_false, Option.map_eq_some_iff]
          constructor
          · rintro ⟨⟨inside', after'⟩, found, same⟩
            cases same
            obtain ⟨line, rfl, closes, before⟩ := ih.mp found
            exact ⟨line, rfl, closes, List.forall_mem_cons.mpr ⟨delimiter, before⟩⟩
          · rintro ⟨line, split, closes, before⟩
            cases inside with
            | nil =>
                cases split
                rw [closes] at delimiter
                cases delimiter
            | cons earlier inside =>
                cases split
                obtain ⟨-, later⟩ := List.forall_mem_cons.mp before
                exact ⟨(inside, after), ih.mpr ⟨line, rfl, closes, later⟩, rfl⟩

/-- The letters of joined lines are letters of more joined lines. -/
theorem mem_joinLines_append {c : Char} {first second : List Text}
    (member : c ∈ joinLines second) : c ∈ joinLines (first ++ second) := by
  induction first with
  | nil => exact member
  | cons line rest ih =>
      cases more : rest ++ second with
      | nil =>
          rw [List.append_eq_nil_iff] at more
          rw [more.2] at member
          cases member
      | cons next others =>
          rw [more] at ih
          rw [List.cons_append, more, joinLines, List.intercalate_cons_cons]
          exact List.mem_append_right _ ih

/-- A body has only letters of its document. -/
theorem mem_of_mem_body {c : Char} {text raw body : Text} (found : cut text = .delimited raw body)
    (member : c ∈ body) : c ∈ text := by
  unfold cut at found
  split at found
  · cases found
  · rename_i first rest lines
    split at found
    · split at found
      · rename_i inside after closed
        cases found
        obtain ⟨line, rfl, -, -⟩ := closing_eq_some_iff.mp closed
        have joined : joinLines (splitLines text) = text := List.intercalate_splitOn '\n'
        have split : first :: (inside ++ line :: after) = (first :: inside ++ [line]) ++ after := by
          simp
        rw [← joined, lines, split]
        exact mem_joinLines_append member
      · cases found
    · cases found

/-- The lines of a document with a block. -/
theorem splitLines_enclose (raw body : Text) :
    splitLines (enclose (raw ++ ['\n']) body) =
      "---".toList :: (splitLines raw ++ "---".toList :: splitLines body) := by
  have written : enclose (raw ++ ['\n']) body =
      "---".toList ++ '\n' :: (raw ++ '\n' :: ("---".toList ++ '\n' :: body)) := by
    exact congrArg ("---\n".toList ++ ·) (List.append_assoc raw ['\n'] _)
  have dashes : splitLines "---".toList = ["---".toList] := by
    decide
  rw [written, splitLines, List.splitOn_append_cons_self, List.splitOn_append_cons_self,
    List.splitOn_append_cons_self]
  change splitLines "---".toList ++ (splitLines raw ++ (splitLines "---".toList ++ _)) = _
  rw [dashes]
  rfl

/-- A line has no line feed. -/
theorem newline_not_mem_of_mem_splitLines {text line : Text} (member : line ∈ splitLines text) :
    '\n' ∉ line :=
  separator_not_mem_of_mem_splitOn member

/-- A block is found as it was written exactly if none of its lines is a delimiter. -/
theorem cut_enclose_iff {raw body : Text} :
    cut (enclose (raw ++ ['\n']) body) = .delimited raw body ↔
      ∀ line ∈ splitLines raw, isDelimiter line = false := by
  have opened : isDelimiter "---".toList = true := by
    decide
  rw [cut, splitLines_enclose]
  simp only [opened, if_true]
  constructor
  · intro found
    split at found
    · rename_i inside after closed
      obtain ⟨line, split, -, before⟩ := closing_eq_some_iff.mp closed
      cases inside with
      | nil =>
          cases found
          intro line member
          cases List.mem_singleton.mp member
          decide
      | cons first inside =>
          have whole : ∀ piece ∈ first :: inside, '\n' ∉ piece := by
            intro piece member
            have among : piece ∈ splitLines raw ++ "---".toList :: splitLines body := by
              rw [split]
              exact List.mem_append_left _ member
            rcases List.mem_append.mp among with here | later
            · exact newline_not_mem_of_mem_splitLines here
            · rcases List.mem_cons.mp later with rfl | there
              · decide
              · exact newline_not_mem_of_mem_splitLines there
          have same : splitLines raw = first :: inside := by
            rw [← (Block.delimited.inj found).1]
            exact List.splitOn_intercalate '\n' whole (List.cons_ne_nil first inside)
          rw [same]
          exact before
    · cases found
  · intro undelimited
    have closed : closing (splitLines raw ++ "---".toList :: splitLines body) =
        some (splitLines raw, splitLines body) :=
      closing_eq_some_iff.mpr ⟨_, rfl, opened, undelimited⟩
    have rawJoined : joinLines (splitLines raw) = raw := List.intercalate_splitOn '\n'
    have bodyJoined : joinLines (splitLines body) = body := List.intercalate_splitOn '\n'
    rw [closed]
    simp only [rawJoined, bodyJoined]

/-- A block is cut at the first delimiter among its lines. -/
theorem cut_enclose_of_delimiter {first later : List Text} {line : Text}
    (whole : ∀ piece ∈ first ++ line :: later, '\n' ∉ piece)
    (undelimited : ∀ earlier ∈ first, isDelimiter earlier = false)
    (closes : isDelimiter line = true) (body : Text) :
    cut (enclose (joinLines (first ++ line :: later) ++ ['\n']) body) =
      .delimited (joinLines first) (joinLines (later ++ "---".toList :: splitLines body)) := by
  have opened : isDelimiter "---".toList = true := by
    decide
  have lines : splitLines (joinLines (first ++ line :: later)) = first ++ line :: later :=
    List.splitOn_intercalate '\n' whole (by simp)
  have closed : closing (first ++ line :: (later ++ "---".toList :: splitLines body)) =
      some (first, later ++ "---".toList :: splitLines body) :=
    closing_eq_some_iff.mpr ⟨line, rfl, closes, undelimited⟩
  rw [cut, splitLines_enclose, lines]
  simp only [opened, if_true, List.append_assoc, List.cons_append, closed]

/-- A line with a visible letter other than a dash is no delimiter. -/
theorem isDelimiter_eq_false_of_mem {c : Char} {line : Text} (member : c ∈ line)
    (visible : isSpace c = false) (noDash : c ≠ '-') : isDelimiter line = false := by
  apply decide_eq_false
  intro dashes
  have kept := mem_strip_of_visible visible member
  rw [dashes] at kept
  simp [noDash] at kept

end Block

/-- Newline translation changes only the body of a document whose block has no carriage
return. -/
theorem readBack_enclose {dumped : Text} (noReturn : '\r' ∉ dumped) (body : Text) :
    readBack (enclose dumped body) = enclose dumped (universalNewlines body) := by
  have opening : '\r' ∉ "---\n".toList := by
    decide
  rw [readBack, enclose, universalNewlines_append_of_no_return opening,
    universalNewlines_append_of_no_return noReturn,
    universalNewlines_append_of_no_return opening]
  rfl

namespace Runtime

variable {runtime : Runtime}

/-- A mapping that is read back is what the parser finds. -/
theorem loadMapping_of_dict {raw : Text} {entries : Mapping}
    (loaded : runtime.safeLoad raw = .ok (.dict entries)) :
    runtime.loadMapping raw = .ok entries := by
  unfold loadMapping
  rw [loaded]
  cases entries <;> rfl

/-- Front matter that is read back and has no delimiter among its lines is parsed as it was
written, with the body. -/
theorem parseFrontmatter_enclose {safeDump : Mapping → Text} {entries : Mapping}
    (readsBack : ReadsBack safeDump runtime entries) (undelimited : Undelimited safeDump entries)
    (body : Text) :
    runtime.parseFrontmatter (enclose (safeDump entries) body) = .ok (entries, body) := by
  obtain ⟨raw, dumped, loaded⟩ := readsBack
  have lines : ∀ line ∈ splitLines raw, Block.isDelimiter line = false := by
    intro line member
    apply undelimited
    rw [dumped, splitLines, List.splitOn_append_cons_self]
    exact List.mem_append_left _ member
  rw [parseFrontmatter, dumped, Block.cut_enclose_iff.mpr lines]
  simp only [loadMapping_of_dict loaded]
  rfl

end Runtime

/-- The document of a memory encloses its front matter. -/
theorem renderMemory_eq (safeDump : Mapping → Text) (fields : MemoryFields) (text : Text) :
    renderMemory safeDump fields text =
      enclose (safeDump fields.frontmatter) ('\n' :: (text ++ ['\n'])) :=
  rfl

/-- An envelope is found where it was put. -/
theorem Envelope.carriedBy_set (envelope : Envelope) (entries : Mapping) :
    envelope.carriedBy (entries.set "capture" envelope.value) = true := by
  unfold carriedBy
  rw [Mapping.get_set]
  simp only [value, List.length_map, decide_true, Bool.true_and, List.all_eq_true]
  intro item member
  apply List.any_eq_true.mpr
  refine ⟨(.str item.1, .str item.2), List.mem_map_of_mem member, ?_⟩
  simp [Value.isStr]

/-- The emitter's text of a mapping is read back, and none of its lines is a delimiter. -/
structure Emits (safeDump : Mapping → Text) (runtime : Runtime) (entries : Mapping) : Prop where
  reads_back : ReadsBack safeDump runtime entries
  undelimited : Undelimited safeDump entries

section RoundTrip

variable {safeDump : Mapping → Text} {runtime : Runtime}

theorem parseFrontmatter_renderMemory {fields : MemoryFields}
    (emits : Emits safeDump runtime fields.frontmatter) (text : Text) :
    runtime.parseFrontmatter (renderMemory safeDump fields text) =
      .ok (fields.frontmatter, '\n' :: (text ++ ['\n'])) := by
  rw [renderMemory_eq]
  exact Runtime.parseFrontmatter_enclose emits.reads_back emits.undelimited _

/-- The document has the envelope, and besides it the front matter and the body of another
document. -/
def Reattached (runtime : Runtime) (envelope : Envelope) (entries : Mapping) (body : Text)
    (document : Text) : Prop :=
  ∃ found, runtime.parseFrontmatter document = .ok (found, body) ∧
    envelope.carriedBy found = true ∧ found.without "capture" = entries.without "capture"

theorem reattached_enclose {envelope : Envelope} {entries : Mapping}
    (emits : Emits safeDump runtime (entries.set "capture" envelope.value)) (body : Text) :
    Reattached runtime envelope entries body
      (enclose (safeDump (entries.set "capture" envelope.value)) body) :=
  ⟨_, Runtime.parseFrontmatter_enclose emits.reads_back emits.undelimited body,
    envelope.carriedBy_set entries, Mapping.without_set _ _ _⟩

/-- An envelope is attached to a document with a block. -/
theorem reattachCapture_of_block {postimage original body : Text} {envelope : Envelope}
    {entries : Mapping} (parsed : runtime.parseFrontmatter postimage = .ok (entries, body))
    (block : opensBlock postimage = true)
    (emits : envelope.carriedBy entries = false →
      Emits safeDump runtime (entries.set "capture" envelope.value)) :
    ∃ document, reattachCapture safeDump runtime postimage envelope original = .ok document ∧
      Reattached runtime envelope entries body document := by
  simp only [reattachCapture, parsed, block, if_true]
  cases carried : envelope.carriedBy entries with
  | true => exact ⟨postimage, rfl, entries, parsed, carried, rfl⟩
  | false => exact ⟨_, rfl, reattached_enclose (emits carried) body⟩

/-- An envelope is attached to a text without a block: the front matter comes from the
proposal, and the text is the body. -/
theorem reattachCapture_of_text {postimage original body : Text} {envelope : Envelope}
    {entries base : Mapping} (parsed : runtime.parseFrontmatter postimage = .ok (entries, body))
    (noBlock : opensBlock postimage = false)
    (proposed : baseFrontmatter runtime original = .ok base)
    (emits : Emits safeDump runtime (base.set "capture" envelope.value)) :
    ∃ document, reattachCapture safeDump runtime postimage envelope original = .ok document ∧
      Reattached runtime envelope base ('\n' :: endLine postimage) document := by
  simp only [reattachCapture, parsed, noBlock, proposed, Bool.false_eq_true, if_false]
  exact ⟨_, rfl, reattached_enclose emits _⟩

end RoundTrip

/-- Rendered front matter is parsed as it was rendered, with the body that was appended; an
envelope that is attached again changes only the `capture` key of a document, and completes a
text without front matter from the proposal. -/
theorem front_matter_round_trips (safeDump : Mapping → Text) (runtime : Runtime) :
    (∀ fields, Emits safeDump runtime fields.frontmatter → ∀ text,
      runtime.parseFrontmatter (renderMemory safeDump fields text) =
        .ok (fields.frontmatter, '\n' :: (text ++ ['\n']))) ∧
    ∀ (postimage original body : Text) (envelope : Envelope) (entries : Mapping),
      runtime.parseFrontmatter postimage = .ok (entries, body) →
      (opensBlock postimage = true →
        (envelope.carriedBy entries = false →
          Emits safeDump runtime (entries.set "capture" envelope.value)) →
        ∃ document, reattachCapture safeDump runtime postimage envelope original = .ok document ∧
          Reattached runtime envelope entries body document) ∧
      (opensBlock postimage = false → ∀ base, baseFrontmatter runtime original = .ok base →
        Emits safeDump runtime (base.set "capture" envelope.value) →
        ∃ document, reattachCapture safeDump runtime postimage envelope original = .ok document ∧
          Reattached runtime envelope base ('\n' :: endLine postimage) document) := by
  constructor
  · intro fields emits text
    exact parseFrontmatter_renderMemory emits text
  · intro postimage original body envelope entries parsed
    constructor
    · intro block emits
      exact reattachCapture_of_block parsed block emits
    · intro noBlock base proposed emits
      exact reattachCapture_of_text parsed noBlock proposed emits

/-! ## A memory, a rule and a tag with a delimiter -/

section Notes

/-- The fields of a memory with these tags. -/
def noteFields (tags : List PyStr) : MemoryFields where
  agentIdentity := PyStr.lit "a"
  tags := tags
  evidence := []
  capture := none
  createdAt := PyStr.lit "t"
  toolActor := PyStr.lit "d"

/-- A tag of three lines. -/
def dashedTag : PyStr :=
  PyStr.lit "a\n---\nb"

/-- An envelope of one field. -/
def noteEnvelope : Envelope :=
  ⟨[(PyStr.lit "capture_source", PyStr.lit "s")], List.nodup_singleton _⟩

/-- The front matter of a rule. -/
def ruleEntries : Mapping :=
  [(.str (PyStr.lit "id"), .str (PyStr.lit "x"))]

/-- What the emitter writes for a memory. -/
def noteBlock : Text :=
  "type: memory\nstatus: proposed\ncreated_by: a\ncreated_at: t\n".toList ++
    "generated:\n  by: d\n  at: t".toList

/-- What it adds for the tag of three lines. -/
def dashedBlock : Text :=
  noteBlock ++ "\ntags:\n- 'a\n\n  ---\n\n  b'".toList

/-- What it writes for a rule with an envelope. -/
def captureBlock : Text :=
  "id: x\ncapture:\n  capture_source: s".toList

/-- The loader on these blocks. -/
def noteRuntime : Runtime :=
  Runtime.ofBlocks [(noteBlock, .dict (noteFields []).frontmatter),
    (dashedBlock, .dict (noteFields [dashedTag]).frontmatter),
    ("id: x".toList, .dict ruleEntries),
    (captureBlock, .dict (ruleEntries.set "capture" noteEnvelope.value))]

/-- The emitter on their mappings. -/
def noteDump (entries : Mapping) : Text :=
  if (entries.get "tags").isSome then dashedBlock ++ ['\n']
  else if (entries.get "type").isSome then noteBlock ++ ['\n']
  else captureBlock ++ ['\n']

theorem noteDump_emits_note : Emits noteDump noteRuntime (noteFields []).frontmatter where
  reads_back := ⟨noteBlock, rfl, rfl⟩
  undelimited := by
    unfold Undelimited
    decide

theorem noteDump_emits_capture :
    Emits noteDump noteRuntime (ruleEntries.set "capture" noteEnvelope.value) where
  reads_back := ⟨captureBlock, rfl, rfl⟩
  undelimited := by
    unfold Undelimited
    decide

/-- A memory without tags is parsed as it was rendered, and an envelope is attached to a rule
and to a text that replaces it. -/
theorem note_round_trips :
    noteRuntime.parseFrontmatter (renderMemory noteDump (noteFields []) "text".toList) =
        .ok ((noteFields []).frontmatter, "\ntext\n".toList) ∧
      (∃ document, reattachCapture noteDump noteRuntime (enclose "id: x\n".toList "new".toList)
          noteEnvelope [] = .ok document ∧
        Reattached noteRuntime noteEnvelope ruleEntries "new".toList document) ∧
      ∃ document, reattachCapture noteDump noteRuntime "new".toList noteEnvelope
          (enclose "id: x\n".toList "old".toList) = .ok document ∧
        Reattached noteRuntime noteEnvelope ruleEntries "\nnew\n".toList document := by
  obtain ⟨rendered, reattached⟩ := front_matter_round_trips noteDump noteRuntime
  refine ⟨rendered _ noteDump_emits_note _, ?_, ?_⟩
  · exact (reattached _ [] "new".toList noteEnvelope ruleEntries rfl).1 rfl fun _ =>
      noteDump_emits_capture
  · exact (reattached "new".toList _ "new".toList noteEnvelope [] rfl).2 rfl ruleEntries rfl
      noteDump_emits_capture

/-- A tag with a line `---` breaks the block although the emitter's text is read back, and a
text without front matter does not keep its keys and its body. -/
theorem dashed_tag_and_text_break_round_trip :
    (ReadsBack noteDump noteRuntime (noteFields [dashedTag]).frontmatter ∧
      noteRuntime.parseFrontmatter
          (renderMemory noteDump (noteFields [dashedTag]) "text".toList) ≠
        .ok ((noteFields [dashedTag]).frontmatter, "\ntext\n".toList)) ∧
      noteRuntime.parseFrontmatter "new".toList = .ok ([], "new".toList) ∧
        ∀ document, reattachCapture noteDump noteRuntime "new".toList noteEnvelope
            (enclose "id: x\n".toList "old".toList) = .ok document →
          ¬Reattached noteRuntime noteEnvelope [] "new".toList document := by
  refine ⟨⟨⟨dashedBlock, rfl, rfl⟩, ?_⟩, rfl, ?_⟩
  · intro parsed
    cases parsed
  · rintro document ⟨⟩ ⟨found, parsed, -, -⟩
    cases parsed

end Notes

end DataOlympus
