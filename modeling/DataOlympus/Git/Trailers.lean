import DataOlympus.Text.Lines
import Mathlib.Data.List.DropRight
import Mathlib.Data.List.Forall2

/-!
# Commit messages and their trailers

`git commit -m` tidies the white space of a message, and `git interpret-trailers --parse` reads
the last paragraph behind the title, if it consists of trailers.  Nothing below a patch divider
or a scissors line is read.  What is documented of the two commands is stated of any git, and
holds of the one that is defined here, from which the listing of an old merge conflict is left
out.
-/

namespace DataOlympus.Git

abbrev Bytes : Type := List UInt8

/-- The bytes of a text in UTF-8. -/
def utf8 (text : Lines.Text) : Bytes :=
  text.flatMap String.utf8EncodeChar

/-- The line feed. -/
def lf : UInt8 := 0x0a

/-- White space in git's own table. -/
def isBlank (byte : UInt8) : Bool :=
  byte = 0x20 || byte = 0x09 || byte = lf || byte = 0x0d

/-- A byte of a trailer's key. -/
def isKey (byte : UInt8) : Bool :=
  (0x30 ≤ byte && byte ≤ 0x39) || (0x41 ≤ byte && byte ≤ 0x5a) ||
    (0x61 ≤ byte && byte ≤ 0x7a) || byte = 0x2d

/-- A line without white space at its end. -/
def trimEnd (line : Bytes) : Bytes :=
  line.rdropWhile isBlank

/-- A value without white space around it. -/
def trim (value : Bytes) : Bytes :=
  trimEnd (value.dropWhile isBlank)

/-- The message of these lines. -/
def unlines (lines : List Bytes) : Bytes :=
  lines.flatMap fun line => line ++ [lf]

/-- The line is blank. -/
def isBlankLine (line : Bytes) : Bool :=
  line.all isBlank

/-- The line divides the message from a patch. -/
def isDivider (line : Bytes) : Bool :=
  (utf8 "---".toList).isPrefixOf line && (line.drop 3).head?.all isBlank

/-- The scissors line. -/
def scissors : Bytes :=
  utf8 "# ------------------------ >8 ------------------------".toList

/-- The line ends what is read. -/
def cutsOff (line : Bytes) : Bool :=
  isDivider line || line = scissors

/-- The line is a title: it is neither blank nor the end of what git reads. -/
def isTitle (line : Bytes) : Bool :=
  !isBlankLine line && !cutsOff line

/-- The line of a trailer. -/
def trailerLine (trailer : Bytes × Bytes) : Bytes :=
  trailer.1 ++ 0x3a :: 0x20 :: trailer.2

/-- The key and the value can stand in a trailer's line. -/
structure Writable (trailer : Bytes × Bytes) : Prop where
  named : trailer.1 ≠ []
  key : ∀ byte ∈ trailer.1, isKey byte = true
  plain : lf ∉ trailer.2 ∧ 0 ∉ trailer.2

/-- A git, as it is asked to commit messages and to read them. -/
structure Tool where
  /-- The message that `git commit -m` stores. -/
  stored : Bytes → Bytes
  /-- What `git -c trailer.separators=: interpret-trailers --parse` prints. -/
  parsed : Bytes → Bytes

/-- What is documented of git, for a title above a paragraph of trailers. -/
structure Tool.Documented (git : Tool) : Prop where
  /-- The white space at the end of each line is stripped. -/
  stores : ∀ (title : Bytes) (trailers : List (Bytes × Bytes)), isTitle (trimEnd title) = true →
    lf ∉ title ∧ 0 ∉ title → trailers ≠ [] → (∀ trailer ∈ trailers, Writable trailer) →
      git.stored (unlines (title :: [] :: trailers.map trailerLine)) =
        unlines (trimEnd title :: [] :: trailers.map fun trailer => trimEnd (trailerLine trailer))
  /-- Each trailer is printed on a line, without the white space around its value. -/
  parses : ∀ (title : Bytes) (trailers : List (Bytes × Bytes)), isTitle title = true →
    lf ∉ title ∧ 0 ∉ title → trailers ≠ [] → (∀ trailer ∈ trailers, Writable trailer) →
      git.parsed (unlines (title :: [] :: trailers.map fun trailer =>
          trimEnd (trailerLine trailer))) =
        unlines (trailers.map fun trailer => trailerLine (trailer.1, trim trailer.2))

/-! ## What is committed -/

/-- The lines of `git stripspace`: `started` says whether one has been kept, and `skipped`
whether blank ones were left out since. -/
def stripLines (started skipped : Bool) : List Bytes → List Bytes
  | [] => []
  | line :: rest =>
      if (trimEnd line).isEmpty then stripLines started true rest
      else
        (if started && skipped then [[]] else []) ++ trimEnd line :: stripLines true false rest

/-- The message that `git commit -m` keeps. -/
def stripspace (message : Bytes) : Bytes :=
  unlines (stripLines false false (message.splitOn lf))

/-! ## What is read -/

/-- The key of a trailer, and what follows its colon. -/
def splitTrailer (line : Bytes) : Option (Bytes × Bytes) :=
  match (line.dropWhile isKey).dropWhile fun byte => byte = 0x20 || byte = 0x09 with
  | [] => none
  | byte :: value =>
      if byte = 0x3a && !(line.takeWhile isKey).isEmpty then
        some (line.takeWhile isKey, value)
      else none

/-- The line continues the value above it. -/
def continues (line : Bytes) : Bool :=
  line.head?.any isBlank

/-- A value and the lines that continue it. -/
def unfolded (value : Bytes) (more : List Bytes) : Bytes :=
  trim (value ++ more.flatMap fun line => 0x20 :: line.dropWhile isBlank)

/-- The trailers among some lines. -/
def trailersIn : List Bytes → List (Bytes × Bytes)
  | [] => []
  | line :: rest =>
      match splitTrailer line with
      | none => trailersIn rest
      | some (key, value) => (key, unfolded value (rest.takeWhile continues)) :: trailersIn rest

/-- The line is a comment. -/
def isComment (line : Bytes) : Bool :=
  line.head? = some 0x23

/-- The line is one that git itself writes. -/
def isGenerated (line : Bytes) : Bool :=
  (utf8 "Signed-off-by: ".toList).isPrefixOf line ||
    (utf8 "(cherry picked from commit ".toList).isPrefixOf line

/-- The line has the form of a trailer. -/
def isTrailer (line : Bytes) : Bool :=
  isGenerated line || (splitTrailer line).isSome

/-- The number of lines that belong to no trailer, where `above` says whether the line above
belongs to one. -/
def strayLines (above : Bool) : List Bytes → Nat
  | [] => 0
  | line :: rest =>
      if isComment line then strayLines false rest
      else if isTrailer line then strayLines true rest
      else if continues line then (if above then 0 else 1) + strayLines above rest
      else 1 + strayLines false rest

/-- The paragraph is a block of trailers: it has no stray line, or a line of git's and at most
three stray lines for each trailer. -/
def isBlock (paragraph : List Bytes) : Bool :=
  let trailers := paragraph.countP fun line => !isComment line && isTrailer line
  if paragraph.any isGenerated then strayLines false paragraph ≤ 3 * trailers
  else 0 < trailers && strayLines false paragraph = 0

/-- The last paragraph behind the title. -/
def lastParagraph (lines : List Bytes) : List Bytes :=
  let behind := (lines.takeWhile fun line => !cutsOff line).dropWhile fun line =>
    !isBlankLine line
  (behind.rdropWhile fun line => isBlankLine line || isComment line).rtakeWhile fun line =>
    !isBlankLine line

/-- The trailers of a message. -/
def trailers (message : Bytes) : List (Bytes × Bytes) :=
  let paragraph := lastParagraph (message.splitOn lf)
  if isBlock paragraph then trailersIn paragraph else []

/-- What `git interpret-trailers --parse` prints. -/
def interpretTrailers (message : Bytes) : Bytes :=
  unlines ((trailers message).map trailerLine)

/-! ## Lines of a message -/

theorem splitOn_unlines {lines : List Bytes} (plain : ∀ line ∈ lines, lf ∉ line) :
    (unlines lines).splitOn lf = lines ++ [[]] := by
  induction lines with
  | nil => rfl
  | cons line rest ih =>
      obtain ⟨first, others⟩ := List.forall_mem_cons.mp plain
      rw [unlines, List.flatMap_cons, List.append_assoc, List.singleton_append,
        List.splitOn_append_cons_self_of_not_mem first]
      exact congrArg (line :: ·) (ih others)

/-- White space at the end of a line goes. -/
theorem trimEnd_append {line rest : Bytes} (visible : trimEnd rest ≠ []) :
    trimEnd (line ++ rest) = line ++ trimEnd rest := by
  induction rest using List.reverseRecOn with
  | nil => exact absurd rfl visible
  | append_singleton rest last ih =>
      unfold trimEnd at *
      rw [← List.append_assoc]
      cases blank : isBlank last with
      | true =>
          rw [List.rdropWhile_concat_pos _ _ _ blank] at visible ⊢
          rw [List.rdropWhile_concat_pos _ _ _ blank]
          exact ih visible
      | false =>
          rw [List.rdropWhile_concat_neg _ _ _ (by simp [blank]),
            List.rdropWhile_concat_neg _ _ _ (by simp [blank]), List.append_assoc]

/-! ## Bytes of a text -/

theorem utf8_append (first second : Lines.Text) :
    utf8 (first ++ second) = utf8 first ++ utf8 second :=
  List.flatMap_append

/-- Only the line feed has the byte of a line feed. -/
theorem eq_lf_of_mem_utf8EncodeChar {c : Char} (member : lf ∈ String.utf8EncodeChar c) :
    c = '\n' := by
  have code : ∀ n : Nat, n < 256 → lf = UInt8.ofNat n → n = 10 := by
    intro n small same
    have nats := congrArg UInt8.toNat same
    rw [UInt8.toNat_ofNat_of_lt' small] at nats
    exact nats.symm
  apply Char.toNat_inj.mp
  change c.val.toNat = 10
  unfold String.utf8EncodeChar at member
  dsimp only at member
  split at member
  · rcases List.mem_singleton.mp member with same
    exact code _ (by omega) same
  · split at member
    · simp only [List.mem_cons, List.not_mem_nil, or_false] at member
      rcases member with same | same
      · exact absurd (code _ (by omega) same) (by omega)
      · exact absurd (code _ (by omega) same) (by omega)
    · split at member
      · simp only [List.mem_cons, List.not_mem_nil, or_false] at member
        rcases member with same | same | same
        · exact absurd (code _ (by omega) same) (by omega)
        · exact absurd (code _ (by omega) same) (by omega)
        · exact absurd (code _ (by omega) same) (by omega)
      · simp only [List.mem_cons, List.not_mem_nil, or_false] at member
        rcases member with same | same | same | same
        · exact absurd (code _ (by omega) same) (by omega)
        · exact absurd (code _ (by omega) same) (by omega)
        · exact absurd (code _ (by omega) same) (by omega)
        · exact absurd (code _ (by omega) same) (by omega)

theorem lf_not_mem_utf8 {text : Lines.Text} (plain : '\n' ∉ text) : lf ∉ utf8 text := by
  intro member
  rcases List.mem_flatMap.mp member with ⟨c, here, byte⟩
  exact plain (eq_lf_of_mem_utf8EncodeChar byte ▸ here)

/-! ## White space around lines and values -/

/-- White space at the end of a line goes, whatever stands before it. -/
theorem trimEnd_concat (line : Bytes) {byte : UInt8} (blank : isBlank byte = true) :
    trimEnd (line ++ [byte]) = trimEnd line :=
  List.rdropWhile_concat_pos _ _ _ blank

theorem trimEnd_cons {byte : UInt8} (visible : isBlank byte = false) (rest : Bytes) :
    trimEnd (byte :: rest) = byte :: trimEnd rest := by
  by_cases blank : trimEnd rest = []
  · rw [blank]
    induction rest using List.reverseRecOn with
    | nil => exact List.rdropWhile_concat_neg isBlank [] byte (by simp [visible])
    | append_singleton rest last ih =>
        have lastBlank : isBlank last = true :=
          List.rdropWhile_eq_nil_iff.mp blank last (by simp)
        rw [trimEnd_concat _ lastBlank] at blank
        rw [← List.cons_append, trimEnd_concat _ lastBlank]
        exact ih blank
  · exact @trimEnd_append [byte] rest blank

/-- A value loses nothing more when the end of its line has been trimmed. -/
theorem trim_trimEnd (value : Bytes) : trim (trimEnd value) = trim value := by
  induction value using List.reverseRecOn with
  | nil => rfl
  | append_singleton value last ih =>
      cases blank : isBlank last with
      | false =>
          rw [trimEnd, List.rdropWhile_concat_neg _ _ _ (by simp [blank])]
      | true =>
          rw [trimEnd_concat _ blank, ih]
          unfold trim
          rw [List.dropWhile_append]
          split
          · rename_i all
            rw [List.isEmpty_iff.mp all, List.dropWhile_cons_of_pos blank]
            rfl
          · rw [trimEnd_concat _ blank]

theorem trim_cons_space (value : Bytes) : trim (0x20 :: value) = trim value := by
  rw [trim, List.dropWhile_cons_of_pos (by decide), trim]

theorem lf_not_mem_trim {value : Bytes} (plain : lf ∉ value) : lf ∉ trim value := by
  intro member
  have dropped := (List.rdropWhile_prefix isBlank _).subset member
  exact plain ((List.dropWhile_suffix isBlank).subset dropped)

/-! ## Messages -/

theorem getLast?_unlines {lines : List Bytes} (nonempty : lines ≠ []) :
    (unlines lines).getLast? = some lf := by
  rw [← List.dropLast_append_getLast nonempty, unlines, List.flatMap_append,
    List.getLast?_append]
  simp

theorem stripLines_visible {lines : List Bytes} (visible : ∀ line ∈ lines, trimEnd line ≠ [])
    (last : List Bytes) :
    stripLines true false (lines ++ last) = lines.map trimEnd ++ stripLines true false last := by
  induction lines with
  | nil => rfl
  | cons line rest ih =>
      obtain ⟨here, others⟩ := List.forall_mem_cons.mp visible
      rw [List.cons_append, stripLines, if_neg (by simpa using here)]
      simp only [Bool.and_false, Bool.false_eq_true, if_false, List.nil_append, ih others,
        List.map_cons, List.cons_append]

/-- What is kept of a title, a blank line and visible lines. -/
theorem stripspace_unlines {title : Bytes} {lines : List Bytes}
    (plain : ∀ line ∈ title :: lines, lf ∉ line)
    (visible : ∀ line ∈ title :: lines, trimEnd line ≠ []) (nonempty : lines ≠ []) :
    stripspace (unlines (title :: [] :: lines)) =
      unlines (trimEnd title :: [] :: lines.map trimEnd) := by
  have all : ∀ line ∈ title :: [] :: lines, lf ∉ line := by
    intro line member
    simp only [List.mem_cons] at member
    rcases member with rfl | rfl | later
    · exact plain line List.mem_cons_self
    · exact List.not_mem_nil
    · exact plain line (List.mem_cons_of_mem _ later)
  obtain ⟨titleVisible, linesVisible⟩ := List.forall_mem_cons.mp visible
  obtain ⟨first, rest, rfl⟩ := List.exists_cons_of_ne_nil nonempty
  obtain ⟨firstVisible, restVisible⟩ := List.forall_mem_cons.mp linesVisible
  have above : (trimEnd title).isEmpty = false := by simpa using titleVisible
  have shown : (trimEnd first).isEmpty = false := by simpa using firstVisible
  have nothing : stripLines true false [[]] = [] := rfl
  have tail : stripLines true false (rest ++ [[]]) = rest.map trimEnd := by
    rw [stripLines_visible restVisible, nothing, List.append_nil]
  have empty : (trimEnd ([] : Bytes)).isEmpty = true := rfl
  rw [stripspace, splitOn_unlines all]
  congr 1
  simp only [List.cons_append, stripLines, empty, shown, above, tail, List.map_cons]
  simp

/-! ## The line of a trailer -/

theorem isBlank_of_isKey {byte : UInt8} (key : isKey byte = true) : isBlank byte = false := by
  by_contra blank
  rw [Bool.not_eq_false] at blank
  simp only [isBlank, Bool.or_eq_true, decide_eq_true_eq] at blank
  rcases blank with ((rfl | rfl) | rfl) | rfl <;> exact absurd key (by decide)

/-- A line that starts with a key and a colon. -/
structure Opens (key value line : Bytes) : Prop where
  named : key ≠ []
  keys : ∀ byte ∈ key, isKey byte = true
  split : ∃ rest, line = key ++ 0x3a :: rest ∧ trim rest = value

/-- The line that is committed for a trailer. -/
theorem Writable.opens {trailer : Bytes × Bytes} (writable : Writable trailer) :
    Opens trailer.1 (trim trailer.2) (trimEnd (trailerLine trailer)) := by
  have visible : trimEnd (0x3a :: 0x20 :: trailer.2) = 0x3a :: trimEnd (0x20 :: trailer.2) :=
    trimEnd_cons (by decide) _
  refine ⟨writable.named, writable.key, trimEnd (0x20 :: trailer.2), ?_, ?_⟩
  · rw [trailerLine, trimEnd_append (by rw [visible]; exact List.cons_ne_nil _ _), visible]
  · rw [trim_trimEnd, trim_cons_space]

section Opened

variable {key value line : Bytes}

theorem Opens.splitTrailer (opens : Opens key value line) :
    ∃ rest, splitTrailer line = some (key, rest) ∧ trim rest = value := by
  obtain ⟨named, keys, rest, rfl, trimmed⟩ := opens
  refine ⟨rest, ?_, trimmed⟩
  have stops : isKey 0x3a = false := by decide
  have taken : (key ++ 0x3a :: rest).takeWhile isKey = key := by
    rw [List.takeWhile_append_of_pos keys, List.takeWhile_cons_of_neg (by simp [stops]),
      List.append_nil]
  have dropped : (key ++ 0x3a :: rest).dropWhile isKey = 0x3a :: rest := by
    rw [List.dropWhile_append_of_pos keys, List.dropWhile_cons_of_neg (by simp [stops])]
  unfold Git.splitTrailer
  rw [dropped, taken, List.dropWhile_cons_of_neg (by decide)]
  simp [named]

/-- The line starts with a letter of its key. -/
theorem Opens.cons (opens : Opens key value line) :
    ∃ first rest, line = first :: rest ∧ isKey first = true := by
  obtain ⟨named, keys, rest, rfl, -⟩ := opens
  obtain ⟨first, others, rfl⟩ := List.exists_cons_of_ne_nil named
  exact ⟨first, _, rfl, keys first List.mem_cons_self⟩

theorem Opens.isBlankLine (opens : Opens key value line) : isBlankLine line = false := by
  obtain ⟨first, rest, rfl, isKey⟩ := opens.cons
  rw [Git.isBlankLine, List.all_cons, isBlank_of_isKey isKey, Bool.false_and]

theorem Opens.isComment (opens : Opens key value line) : isComment line = false := by
  obtain ⟨first, rest, rfl, isKey⟩ := opens.cons
  apply decide_eq_false
  rintro ⟨⟩
  exact absurd isKey (by decide)

theorem Opens.continues (opens : Opens key value line) : continues line = false := by
  obtain ⟨first, rest, rfl, isKey⟩ := opens.cons
  exact isBlank_of_isKey isKey

theorem Opens.isTrailer (opens : Opens key value line) : isTrailer line = true := by
  obtain ⟨rest, split, -⟩ := opens.splitTrailer
  simp [Git.isTrailer, split]

/-- Behind three dashes a key goes on, or its colon comes. -/
theorem Opens.isDivider (opens : Opens key value line) : isDivider line = false := by
  have dashes : utf8 "---".toList = [0x2d, 0x2d, 0x2d] := rfl
  obtain ⟨named, keys, rest, rfl, -⟩ := opens
  rw [Git.isDivider, dashes]
  rcases key with _ | ⟨a, _ | ⟨b, _ | ⟨c, _ | ⟨d, others⟩⟩⟩⟩
  · exact absurd rfl named
  · simp [List.isPrefixOf]
  · simp [List.isPrefixOf]
  · simp [isBlank, lf]
  · have visible := isBlank_of_isKey (keys d (by simp))
    simp [visible]

theorem Opens.cutsOff (opens : Opens key value line) : cutsOff line = false := by
  have other : scissors = 0x23 :: scissors.tail := rfl
  rw [Git.cutsOff, opens.isDivider, Bool.false_or]
  obtain ⟨first, rest, rfl, isKey⟩ := opens.cons
  apply decide_eq_false
  rw [other]
  rintro ⟨⟩
  exact absurd isKey (by decide)

end Opened

/-! ## The paragraph of trailers -/

/-- Each line opens its trailer. -/
abbrev Block (trailers : List (Bytes × Bytes)) (lines : List Bytes) : Prop :=
  List.Forall₂ (fun trailer line => Opens trailer.1 trailer.2 line) trailers lines

section Blocks

variable {trailers : List (Bytes × Bytes)} {lines : List Bytes}

theorem Block.exists_opens (block : Block trailers lines) {line : Bytes} (member : line ∈ lines) :
    ∃ key value, Opens key value line := by
  induction block with
  | nil => cases member
  | cons opens _ ih =>
      rcases List.mem_cons.mp member with rfl | later
      · exact ⟨_, _, opens⟩
      · exact ih later

theorem Block.strayLines (block : Block trailers lines) (above : Bool) :
    strayLines above lines = 0 := by
  induction block generalizing above with
  | nil => rfl
  | cons opens _ ih =>
      rw [Git.strayLines, opens.isComment, opens.isTrailer]
      exact ih true

theorem Block.isBlock (block : Block trailers lines) (nonempty : lines ≠ []) :
    isBlock lines = true := by
  have counted : 0 < lines.countP fun line => !isComment line && isTrailer line := by
    obtain ⟨line, member⟩ := List.exists_mem_of_ne_nil _ nonempty
    obtain ⟨_, _, opens⟩ := block.exists_opens member
    exact List.countP_pos_iff.mpr ⟨line, member, by simp [opens.isComment, opens.isTrailer]⟩
  unfold Git.isBlock
  simp only [block.strayLines]
  split
  · simp
  · simp [counted]

theorem Block.trailersIn (block : Block trailers lines) : trailersIn lines = trailers := by
  induction block with
  | nil => rfl
  | @cons trailer line trailers lines opens block ih =>
      obtain ⟨rest, split, trimmed⟩ := opens.splitTrailer
      have alone : lines.takeWhile continues = [] := by
        cases block with
        | nil => rfl
        | cons next _ => exact List.takeWhile_cons_of_neg (by simp [next.continues])
      rw [Git.trailersIn, split]
      simp only [alone, unfolded, List.flatMap_nil, List.append_nil, trimmed, ih]

end Blocks

/-- A title, a blank line and a block: git reads the block. -/
theorem lastParagraph_titled {title : Bytes} {trailers : List (Bytes × Bytes)}
    {lines : List Bytes} (block : Block trailers lines) (shown : isBlankLine title = false)
    (uncut : cutsOff title = false) (nonempty : lines ≠ []) :
    lastParagraph (title :: [] :: lines ++ [[]]) = lines := by
  have uncutLines : ∀ line ∈ lines, cutsOff line = false := by
    intro line member
    rcases block.exists_opens member with ⟨_, _, opens⟩
    exact opens.cutsOff
  have visible : ∀ line ∈ lines, isBlankLine line = false := by
    intro line member
    rcases block.exists_opens member with ⟨_, _, opens⟩
    exact opens.isBlankLine
  have kept : (title :: [] :: lines ++ [[]]).takeWhile (fun line => !cutsOff line) =
      title :: [] :: lines ++ [[]] := by
    rw [List.takeWhile_eq_self_iff]
    intro line member
    simp only [List.mem_append, List.mem_cons, List.not_mem_nil, or_false] at member
    rcases member with (rfl | rfl | member) | rfl
    · simp [uncut]
    · rfl
    · simp [uncutLines line member]
    · rfl
  have behind : (title :: [] :: lines ++ [[]]).dropWhile (fun line => !isBlankLine line) =
      [] :: lines ++ [[]] := by
    rw [List.cons_append, List.dropWhile_cons_of_pos (by simp [shown]), List.cons_append,
      List.dropWhile_cons_of_neg (by decide)]
  have trimmed : ([] :: lines ++ [[]]).rdropWhile
      (fun line => isBlankLine line || isComment line) = [] :: lines := by
    rw [List.rdropWhile_concat_pos _ _ _ (by decide)]
    rw [List.rdropWhile_eq_self_iff]
    intro _
    rw [List.getLast_cons nonempty]
    rcases block.exists_opens (List.getLast_mem nonempty) with ⟨_, _, opens⟩
    simp [opens.isBlankLine, opens.isComment]
  have paragraph : ([] :: lines).rtakeWhile (fun line => !isBlankLine line) = lines := by
    rw [List.rtakeWhile, List.reverse_cons, List.takeWhile_append_of_pos]
    · rw [List.takeWhile_cons_of_neg (by decide), List.append_nil, List.reverse_reverse]
    · intro line member
      simp [visible line (List.mem_reverse.mp member)]
  rw [lastParagraph, kept, behind, trimmed, paragraph]

/-! ## A git that does this -/

/-- The git that is defined here. -/
def tool : Tool where
  stored := stripspace
  parsed := interpretTrailers

section Documentation

variable {title : Bytes} {trailers : List (Bytes × Bytes)}

theorem block_of_writable (writable : ∀ trailer ∈ trailers, Writable trailer) :
    Block (trailers.map fun trailer => (trailer.1, trim trailer.2))
      (trailers.map fun trailer => trimEnd (trailerLine trailer)) :=
  List.forall₂_map_left_iff.mpr (List.forall₂_map_right_iff.mpr
    (List.forall₂_same.mpr fun trailer member => (writable trailer member).opens))

theorem Writable.lf_not_mem {trailer : Bytes × Bytes} (writable : Writable trailer) :
    lf ∉ trailerLine trailer := by
  simp only [trailerLine, List.mem_append, List.mem_cons, not_or]
  refine ⟨fun member => ?_, by decide, by decide, writable.plain.1⟩
  exact absurd (writable.key lf member) (by decide)

theorem lf_not_mem_trimEnd {line : Bytes} (plain : lf ∉ line) : lf ∉ trimEnd line :=
  fun member => plain ((List.rdropWhile_prefix isBlank line).subset member)

/-- The git that is defined here does what is documented. -/
theorem documented_tool : tool.Documented where
  stores title trailers isTitled plain nonempty writable := by
    refine (stripspace_unlines ?_ ?_ ?_).trans (by rw [List.map_map]; rfl)
    · refine List.forall_mem_cons.mpr ?_
      refine ⟨plain.1, ?_⟩
      intro line member
      obtain ⟨trailer, here, rfl⟩ := List.mem_map.mp member
      exact (writable trailer here).lf_not_mem
    · refine List.forall_mem_cons.mpr ?_
      constructor
      · intro blank
        rw [isTitle, blank] at isTitled
        cases isTitled
      · intro line member blank
        obtain ⟨trailer, here, rfl⟩ := List.mem_map.mp member
        obtain ⟨first, rest, visible, -⟩ := (writable trailer here).opens.cons
        rw [blank] at visible
        cases visible
    · simpa using nonempty
  parses title trailers isTitled plain nonempty writable := by
    have block := block_of_writable writable
    have linesPlain : ∀ line ∈ title :: [] :: trailers.map fun trailer =>
        trimEnd (trailerLine trailer), lf ∉ line := by
      intro line member
      simp only [List.mem_cons] at member
      rcases member with rfl | rfl | later
      · exact plain.1
      · exact List.not_mem_nil
      · obtain ⟨trailer, here, rfl⟩ := List.mem_map.mp later
        exact lf_not_mem_trimEnd (writable trailer here).lf_not_mem
    rw [isTitle, Bool.and_eq_true, Bool.not_eq_true', Bool.not_eq_true'] at isTitled
    have some_lines : trailers.map (fun trailer => trimEnd (trailerLine trailer)) ≠ [] := by
      simpa using nonempty
    have paragraph := lastParagraph_titled block isTitled.1 isTitled.2 some_lines
    change interpretTrailers _ = _
    rw [interpretTrailers, Git.trailers, splitOn_unlines linesPlain]
    rw [List.cons_append, List.cons_append] at paragraph ⊢
    rw [paragraph, block.isBlock some_lines, if_pos rfl, block.trailersIn, List.map_map]
    rfl

end Documentation

end DataOlympus.Git
