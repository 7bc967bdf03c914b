import DataOlympus.Document.Path

/-!
# Front matter

`parse_frontmatter` cuts the text at line feeds and looks for two lines that
strip to `---`.  The write gates run it on the postimage in memory, the index on
what a text-mode read returns for the bytes written from that postimage.  The
second half of this module says exactly for which postimages the two runs hand
the same text to the YAML loader.
-/

namespace DataOlympus

open Lines

/-- What the search for a front matter block finds. -/
inductive Block where
  | absent
  | unterminated
  | delimited (raw body : Text)
  deriving DecidableEq

namespace Block

/-- `line.strip() == "---"`. -/
def isDelimiter (line : Text) : Bool :=
  strip line = "---".toList

/-- The lines before the first delimiter and the lines after it. -/
def closing : List Text → Option (List Text × List Text)
  | [] => none
  | line :: rest =>
      if isDelimiter line then some ([], rest)
      else (closing rest).map fun found => (line :: found.1, found.2)

/-- The search for the block of a document. -/
def cut (text : Text) : Block :=
  match splitLines text with
  | [] => .absent
  | first :: rest =>
      if isDelimiter first then
        match closing rest with
        | some (inside, after) => .delimited (joinLines inside) (joinLines after)
        | none => .unterminated
      else .absent

/-- The text handed to the YAML loader, if the document has a closed block. -/
def yamlText (text : Text) : Option Text :=
  match cut text with
  | .delimited raw _ => some raw
  | _ => none

end Block

namespace Runtime

variable (runtime : Runtime)

/-- The mapping the loader finds in the text of a block. -/
def loadMapping (raw : Text) : Except Raised Mapping :=
  match runtime.safeLoad raw with
  | .error (.yamlError message) =>
      .error (.valueError (PyStr.lit "invalid YAML in frontmatter: " ++ message))
  | .error (.valueError message) => .error (.valueError message)
  | .error (.other message) => .error (.loader message)
  | .ok value =>
      match if value.truthy then value else .dict [] with
      | .dict entries => .ok entries
      | _ => .error (.valueError (PyStr.lit "frontmatter must be a YAML mapping"))

/-- `parse_frontmatter(text)`. -/
def parseFrontmatter (text : Text) : Except Raised (Mapping × Text) :=
  match Block.cut text with
  | .absent => .ok ([], text)
  | .unterminated =>
      .error (.valueError (PyStr.lit "unterminated frontmatter block"))
  | .delimited raw body =>
      (runtime.loadMapping raw).map fun entries => (entries, body)

/-- `parse_frontmatter` as its lenient callers wrap it: a `ValueError` leaves no
front matter and the whole text as body. -/
def parseLenient (text : Text) : Except Raised (Mapping × Text) :=
  match runtime.parseFrontmatter text with
  | .error (.valueError _) => .ok ([], text)
  | result => result

/-- The mapping of `parseLenient`. -/
def lenientFrontmatter (text : Text) : Except Raised Mapping :=
  (runtime.parseLenient text).map Prod.fst

theorem lenientFrontmatter_of_parseFrontmatter {text body : Text} {entries : Mapping}
    (parsed : runtime.parseFrontmatter text = .ok (entries, body)) :
    runtime.lenientFrontmatter text = .ok entries := by
  simp [lenientFrontmatter, parseLenient, parsed, Except.map]

/-- The lenient reading of the YAML text of a block, if there is one. -/
def loadLenient : Option Text → Except Raised Mapping
  | none => .ok []
  | some raw =>
      match runtime.loadMapping raw with
      | .error (.valueError _) => .ok []
      | result => result

/-- The lenient parse depends on the YAML text of the block only. -/
theorem lenientFrontmatter_eq (text : Text) :
    runtime.lenientFrontmatter text = runtime.loadLenient (Block.yamlText text) := by
  unfold lenientFrontmatter parseLenient parseFrontmatter Block.yamlText
  cases Block.cut text with
  | absent => rfl
  | unterminated => rfl
  | delimited raw body =>
      unfold loadLenient
      cases loaded : runtime.loadMapping raw with
      | ok entries => simp [Except.map, loaded]
      | error raised => cases raised <;> simp [Except.map, loaded]

/-- Without a closed block the lenient parse finds no front matter. -/
theorem lenientFrontmatter_of_yamlText_none {text : Text}
    (noBlock : Block.yamlText text = none) :
    runtime.lenientFrontmatter text = .ok [] := by
  rw [lenientFrontmatter_eq, noBlock, loadLenient]

/-- With a closed block it finds the mapping of that block. -/
theorem lenientFrontmatter_of_yamlText_some {text raw : Text} {entries : Mapping}
    (closed : Block.yamlText text = some raw)
    (loaded : runtime.loadMapping raw = .ok entries) :
    runtime.lenientFrontmatter text = .ok entries := by
  rw [lenientFrontmatter_eq, closed, loadLenient, loaded]

end Runtime

/-! ## In memory and on disk -/

/-- The text `Path.read_text` returns for the file written from `postimage`. -/
def readBack (postimage : Text) : Text :=
  universalNewlines postimage

/-- Newline translation leaves the YAML text of a document alone. -/
def StableBlock (text : Text) : Prop :=
  Block.yamlText (readBack text) = Block.yamlText text

instance (text : Text) : Decidable (StableBlock text) :=
  inferInstanceAs (Decidable (_ = _))

/-- Newline translation leaves the YAML text of the postimage alone.  A block that
is never closed is rejected before anything is read back. -/
def SameBlock (postimage : Text) : Prop :=
  Block.cut postimage = .unterminated ∨ StableBlock postimage

instance (postimage : Text) : Decidable (SameBlock postimage) :=
  inferInstanceAs (Decidable (_ ∨ _))

/-- Both readings of a document with a stable block find the same front matter. -/
theorem StableBlock.lenientFrontmatter {text : Text} (stable : StableBlock text)
    (runtime : Runtime) :
    runtime.lenientFrontmatter (readBack text) = runtime.lenientFrontmatter text := by
  rw [runtime.lenientFrontmatter_eq, runtime.lenientFrontmatter_eq, stable]

/-- A postimage with front matter has the same block only if the block is stable. -/
theorem SameBlock.stableBlock {runtime : Runtime} {postimage body : Text}
    {entries : Mapping} (same : SameBlock postimage)
    (parsed : runtime.parseFrontmatter postimage = .ok (entries, body)) :
    StableBlock postimage := by
  rcases same with unterminated | stable
  · simp [Runtime.parseFrontmatter, unterminated] at parsed
  · exact stable

/-- On a postimage with the same block the index finds the front matter that the
strict parse of the gates found. -/
theorem SameBlock.lenientFrontmatter {runtime : Runtime} {postimage body : Text}
    {entries : Mapping} (same : SameBlock postimage)
    (parsed : runtime.parseFrontmatter postimage = .ok (entries, body)) :
    runtime.lenientFrontmatter (readBack postimage) = .ok entries := by
  rw [(same.stableBlock parsed).lenientFrontmatter]
  exact runtime.lenientFrontmatter_of_parseFrontmatter parsed

end DataOlympus
