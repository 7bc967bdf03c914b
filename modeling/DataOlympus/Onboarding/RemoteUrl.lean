import DataOlympus.Control.Except
import DataOlympus.Document.Render
import DataOlympus.Python.Mapping
import DataOlympus.Text.Match

/-!
# The remote URL of a bootstrap

A bootstrap writes the remote URL into the front matter of a file.  It looks for the block by
its own search, which finds the block of the parser only where both delimiters are bare lines
and something stands between them.
-/

namespace DataOlympus

open Lines

/-- A file of a bootstrap. -/
structure BundleText where
  targetPath : Text
  postimage : Text

section Inject

variable (safeDump : Mapping → Text) (runtime : Runtime)

/-- The front matter and the rest of a text that begins with a bare delimiter, if the next bare
one is found. -/
def fenced (postimage : Text) : Option (Text × Text) :=
  (find "\n---\n".toList (postimage.drop 4)).map fun fmEnd =>
    ((postimage.drop 4).take fmEnd, (postimage.drop 4).drop (fmEnd + 5))

/-- The front matter has this URL. -/
def carriesUrl (fm : Mapping) (url : PyStr) : Bool :=
  (fm.get "git_remote_url").any fun value => value.isStr url

/-- What `_inject_remote_url` makes of the text of its target. -/
def injectInto (url : PyStr) (postimage : Text) : Except Raised Text :=
  if "---\n".toList.isPrefixOf postimage then
    match fenced postimage with
    | none => .ok postimage
    | some (fmText, rest) =>
        match runtime.safeLoad fmText with
        | .error (.yamlError _) => .ok postimage
        | .error (.valueError message) => .error (.valueError message)
        | .error (.other message) => .error (.loader message)
        | .ok value =>
            match if value.truthy then value else .dict [] with
            | .dict fm =>
                if carriesUrl fm url then .ok postimage
                else .ok (enclose (safeDump (Mapping.set fm "git_remote_url" (.str url))) rest)
            | _ => .ok postimage
  else
    .ok ("---\n".toList ++ safeDump (Mapping.ofFields [("git_remote_url", .str url)]) ++
      "---\n\n".toList ++ postimage)

/-- `_inject_remote_url(files, url, target_filename=…)`. -/
def injectRemoteUrl (files : List BundleText) (url : PyStr) (targetFilename : Text) :
    Except Raised (List BundleText) :=
  files.mapM fun file =>
    if ('/' :: targetFilename).isSuffixOf file.targetPath then
      (injectInto safeDump runtime url file.postimage).map fun postimage =>
        { file with postimage := postimage }
    else .ok file

end Inject

/-! ## The two searches -/

/-- A text that encloses this front matter between bare delimiters, none of whose lines is a
delimiter. -/
def Encloses (text raw body : Text) : Prop :=
  text = enclose (raw ++ ['\n']) body ∧
    ∀ line ∈ splitLines raw, Block.isDelimiter line = false

theorem splitLines_fence (before after : Text) :
    splitLines (before ++ "\n---\n".toList ++ after) =
      splitLines before ++ "---".toList :: splitLines after := by
  have written : before ++ "\n---\n".toList ++ after =
      before ++ '\n' :: ("---".toList ++ '\n' :: after) := by
    rw [List.append_assoc]
    rfl
  have dashes : List.splitOn '\n' "---".toList = ["---".toList] := by
    decide
  rw [written, splitLines, List.splitOn_append_cons_self, List.splitOn_append_cons_self, dashes]
  rfl

/-- A text is told by its lines. -/
theorem splitLines_injective : splitLines.Injective := by
  intro first second same
  have joined := congrArg (List.intercalate ['\n']) same
  rwa [splitLines, splitLines, List.intercalate_splitOn, List.intercalate_splitOn] at joined

/-- A text with the lines of another one and more is longer. -/
theorem length_lt_of_splitLines {text whole : Text} {line : Text} {more : List Text}
    (lines : splitLines whole = splitLines text ++ line :: more) :
    text.length < whole.length := by
  have pieces : splitLines (joinLines (line :: more)) = line :: more := by
    apply List.splitOn_intercalate '\n' _ (List.cons_ne_nil line more)
    intro piece member
    apply @Block.newline_not_mem_of_mem_splitLines whole
    rw [lines]
    exact List.mem_append_right _ member
  have same : whole = text ++ '\n' :: joinLines (line :: more) := by
    apply splitLines_injective
    rw [lines, splitLines, splitLines, List.splitOn_append_cons_self]
    exact congrArg (splitLines text ++ ·) pieces.symm
  rw [same, List.length_append, List.length_cons]
  omega

/-- The search for a bare delimiter stops behind lines that are none. -/
theorem find_fence {raw body : Text}
    (plain : ∀ line ∈ splitLines raw, Block.isDelimiter line = false) :
    find "\n---\n".toList (raw ++ "\n---\n".toList ++ body) = some raw.length := by
  obtain ⟨place, bound, found⟩ := @exists_find_le "\n---\n".toList raw body
  obtain ⟨after, split⟩ := eq_append_of_find found
  have taken : (raw ++ "\n---\n".toList ++ body).take place = raw.take place := by
    rw [List.append_assoc, List.take_append_of_le_length bound]
  rw [taken] at split
  have lines := congrArg splitLines split
  rw [splitLines_fence, splitLines_fence] at lines
  have dashes : Block.isDelimiter "---".toList = true := by
    decide
  have same : place = raw.length := by
    rcases List.append_eq_append_iff.mp lines with ⟨more, before, behind⟩ | ⟨more, whole, behind⟩
    · cases more with
      | nil =>
          rw [List.append_nil] at before
          have here := congrArg List.length (splitLines_injective before)
          rw [List.length_take] at here
          omega
      | cons line more =>
          have longer := length_lt_of_splitLines before
          rw [List.length_take] at longer
          omega
    · cases more with
      | nil =>
          rw [List.append_nil] at whole
          have here := congrArg List.length (splitLines_injective whole)
          rw [List.length_take] at here
          omega
      | cons line more =>
          rw [List.cons_append, List.cons.injEq] at behind
          have delimits := plain line (by rw [whole]; simp)
          rw [← behind.1, dashes] at delimits
          cases delimits
  rw [found, same]

/-- Both searches find this block exactly if the text encloses it between bare delimiters. -/
theorem encloses_iff {text raw body : Text} : Encloses text raw body ↔
    ("---\n".toList.isPrefixOf text = true ∧ fenced text = some (raw, body)) ∧
      Block.cut text = .delimited raw body := by
  constructor
  · rintro ⟨rfl, plain⟩
    refine ⟨⟨rfl, ?_⟩, Block.cut_enclose_iff.mpr plain⟩
    have inner : (enclose (raw ++ ['\n']) body).drop 4 = raw ++ "\n---\n".toList ++ body := by
      have written : enclose (raw ++ ['\n']) body =
          "---\n".toList ++ (raw ++ "\n---\n".toList ++ body) := by
        rw [enclose, List.append_assoc raw, List.append_assoc raw]
        rfl
      rw [written]
      rfl
    rw [fenced, inner, find_fence plain]
    rw [Option.map_some, List.append_assoc, List.take_left, ← List.drop_drop, List.drop_left]
    rfl
  · rintro ⟨⟨leading, found⟩, cut⟩
    obtain ⟨tail, rfl⟩ := List.isPrefixOf_iff_prefix.mp leading
    obtain ⟨place, here, pieces⟩ := Option.map_eq_some_iff.mp found
    obtain ⟨after, split⟩ := eq_append_of_find here
    obtain ⟨rfl, rfl⟩ := Prod.mk.inj pieces
    have rest : ("---\n".toList ++ tail).drop 4 = tail := rfl
    rw [rest] at split here cut ⊢
    have bound : place ≤ tail.length := by
      by_contra beyond
      have lengths := congrArg List.length split
      simp only [List.length_append, List.length_take] at lengths
      have five : "\n---\n".toList.length = 5 := rfl
      omega
    generalize start : tail.take place = before at split
    have length : before.length = place := by
      rw [← start, List.length_take_of_le bound]
    have behind : tail.drop (place + 5) = after := by
      rw [split, ← length, List.append_assoc, ← List.drop_drop, List.drop_left]
      rfl
    have written : "---\n".toList ++ tail = enclose (before ++ ['\n']) after := by
      rw [split, enclose, List.append_assoc before, List.append_assoc before]
      rfl
    rw [behind] at cut ⊢
    refine ⟨written, ?_⟩
    rw [written] at cut
    apply Block.cut_enclose_iff.mp
    rw [cut, start]

/-! ## What is parsed afterwards -/

section Inject

variable {safeDump : Mapping → Text} {runtime : Runtime} {url : PyStr}

/-- The parser finds the URL, the other keys of these entries, and this body. -/
def Injected (runtime : Runtime) (url : PyStr) (entries : Mapping) (body document : Text) :
    Prop :=
  ∃ found, runtime.parseFrontmatter document = .ok (found, body) ∧
    found.get "git_remote_url" = some (.str url) ∧
    found.without "git_remote_url" = entries.without "git_remote_url"

theorem injected_enclose {entries : Mapping}
    (emits : Emits safeDump runtime (entries.set "git_remote_url" (.str url))) (body : Text) :
    Injected runtime url entries body
      (enclose (safeDump (entries.set "git_remote_url" (.str url))) body) :=
  ⟨_, Runtime.parseFrontmatter_enclose emits.reads_back emits.undelimited body,
    Mapping.get_set _ _ _, Mapping.without_set _ _ _⟩

theorem carriesUrl_iff {entries : Mapping} :
    carriesUrl entries url = true ↔ entries.get "git_remote_url" = some (.str url) := by
  unfold carriesUrl
  cases entries.get "git_remote_url" with
  | none => simp
  | some value =>
      rw [Option.any_some, Value.isStr_iff, Option.some.injEq]

/-- A text with front matter between bare delimiters. -/
theorem injectInto_of_encloses {text raw body : Text} {entries : Mapping}
    (encloses : Encloses text raw body)
    (parsed : runtime.parseFrontmatter text = .ok (entries, body))
    (emits : carriesUrl entries url = false →
      Emits safeDump runtime (entries.set "git_remote_url" (.str url))) :
    ∃ document, injectInto safeDump runtime url text = .ok document ∧
      Injected runtime url entries body document := by
  obtain ⟨⟨leading, found⟩, cut⟩ := encloses_iff.mp encloses
  have loaded : runtime.loadMapping raw = .ok entries := by
    rw [Runtime.parseFrontmatter, cut] at parsed
    obtain ⟨other, done, same⟩ := Except.map_eq_ok_iff.mp parsed
    rw [done, (Prod.mk.inj same).1]
  unfold Runtime.loadMapping at loaded
  unfold injectInto
  rw [if_pos leading, found]
  dsimp only
  cases read : runtime.safeLoad raw with
  | error failed =>
      rw [read] at loaded
      cases failed with
      | yamlError message => cases loaded
      | valueError message => cases loaded
      | other message => cases loaded
  | ok value =>
      rw [read] at loaded
      dsimp only at loaded ⊢
      cases dict : (if value.truthy then value else .dict []) with
      | dict fm =>
          rw [dict] at loaded
          cases loaded
          dsimp only
          cases carried : carriesUrl entries url with
          | true =>
              exact ⟨text, rfl, entries, parsed, carriesUrl_iff.mp carried, rfl⟩
          | false => exact ⟨_, rfl, injected_enclose (emits carried) body⟩
      | _ =>
          rw [dict] at loaded
          cases loaded

/-- A text without front matter: its body follows a blank line. -/
theorem injectInto_of_absent {text : Text} (absent : Block.cut text = .absent)
    (emits : Emits safeDump runtime (Mapping.ofFields [("git_remote_url", .str url)])) :
    ∃ document, injectInto safeDump runtime url text = .ok document ∧
      Injected runtime url [] ('\n' :: text) document := by
  have closed : ¬"---\n".toList.isPrefixOf text = true := by
    intro leading
    obtain ⟨tail, rfl⟩ := List.isPrefixOf_iff_prefix.mp leading
    have lines : splitLines ("---\n".toList ++ tail) = "---".toList :: splitLines tail := by
      have written : "---\n".toList ++ tail = "---".toList ++ '\n' :: tail := rfl
      have dashes : List.splitOn '\n' "---".toList = ["---".toList] := by
        decide
      rw [written, splitLines, List.splitOn_append_cons_self, dashes]
      rfl
    have opened : Block.isDelimiter "---".toList = true := by
      decide
    rw [Block.cut, lines] at absent
    simp only [opened, if_true] at absent
    split at absent <;> cases absent
  unfold injectInto
  rw [if_neg closed]
  refine ⟨_, rfl, ?_⟩
  have written : "---\n".toList ++ safeDump (Mapping.ofFields [("git_remote_url", .str url)]) ++
      "---\n\n".toList ++ text =
        enclose (safeDump (Mapping.set [] "git_remote_url" (.str url))) ('\n' :: text) := by
    rw [enclose, List.append_assoc, List.append_assoc]
    rfl
  rw [written]
  exact injected_enclose emits _

/-- The other files are left alone, and no file changes its path. -/
theorem injectRemoteUrl_files {files written : List BundleText} {targetFilename : Text}
    (done : injectRemoteUrl safeDump runtime files url targetFilename = .ok written) :
    List.Forall₂ (fun file result =>
      result.targetPath = file.targetPath ∧
        if ('/' :: targetFilename).isSuffixOf file.targetPath then
          injectInto safeDump runtime url file.postimage = .ok result.postimage
        else result.postimage = file.postimage) files written := by
  apply (Except.mapM_eq_ok_iff.mp done).imp
  intro file result round
  split at round
  · rename_i target
    obtain ⟨postimage, injected, rfl⟩ := Except.map_eq_ok_iff.mp round
    rw [if_pos target]
    exact ⟨rfl, injected⟩
  · rename_i other
    cases round
    rw [if_neg other]
    exact ⟨rfl, rfl⟩

end Inject

/-- Where a text encloses front matter between bare delimiters, which is exactly where the
search finds the block of the parser, the parser finds afterwards the URL, every other key and
the body of the text.  Where a text has no front matter it finds the URL alone, and the text
behind a blank line. -/
theorem remote_url_is_injected (safeDump : Mapping → Text) (runtime : Runtime) (url : PyStr)
    (text : Text) :
    (∀ raw body, Encloses text raw body ↔
      ("---\n".toList.isPrefixOf text = true ∧ fenced text = some (raw, body)) ∧
        Block.cut text = .delimited raw body) ∧
      (∀ raw body entries, Encloses text raw body →
        runtime.parseFrontmatter text = .ok (entries, body) →
        (carriesUrl entries url = false →
          Emits safeDump runtime (entries.set "git_remote_url" (.str url))) →
        ∃ document, injectInto safeDump runtime url text = .ok document ∧
          Injected runtime url entries body document) ∧
      (Block.cut text = .absent →
        Emits safeDump runtime (Mapping.ofFields [("git_remote_url", .str url)]) →
        ∃ document, injectInto safeDump runtime url text = .ok document ∧
          Injected runtime url [] ('\n' :: text) document) := by
  refine ⟨fun raw body => encloses_iff, ?_, injectInto_of_absent⟩
  intro raw body entries encloses parsed emits
  exact injectInto_of_encloses encloses parsed emits

/-! ## A workspace file -/

section Workspace

/-- The remote of a workspace. -/
def workspaceUrl : PyStr :=
  PyStr.lit "g"

/-- The front matter of its file. -/
def workspaceEntries : Mapping :=
  [(.str (PyStr.lit "id"), .str (PyStr.lit "x"))]

/-- What the emitter writes for a remote alone. -/
def remoteBlock : Text :=
  "git_remote_url: g".toList

/-- What it writes for the file with its remote. -/
def workspaceBlock : Text :=
  "id: x\n".toList ++ remoteBlock

/-- The loader on these blocks. -/
def workspaceRuntime : Runtime :=
  Runtime.ofBlocks [("id: x".toList, .dict workspaceEntries),
    (remoteBlock, .dict (Mapping.ofFields [("git_remote_url", .str workspaceUrl)])),
    (workspaceBlock, .dict (workspaceEntries.set "git_remote_url" (.str workspaceUrl)))]

/-- The emitter on their mappings. -/
def workspaceDump (entries : Mapping) : Text :=
  if (entries.get "id").isSome then workspaceBlock ++ ['\n'] else remoteBlock ++ ['\n']

theorem workspaceDump_emits_file : Emits workspaceDump workspaceRuntime
    (workspaceEntries.set "git_remote_url" (.str workspaceUrl)) where
  reads_back := ⟨workspaceBlock, rfl, rfl⟩
  undelimited := by
    unfold Undelimited
    decide

theorem workspaceDump_emits_remote : Emits workspaceDump workspaceRuntime
    (Mapping.ofFields [("git_remote_url", .str workspaceUrl)]) where
  reads_back := ⟨remoteBlock, rfl, rfl⟩
  undelimited := by
    unfold Undelimited
    decide

/-- A file with an id keeps it, and a file without front matter keeps its text. -/
theorem workspace_file_is_injected :
    (∃ document, injectInto workspaceDump workspaceRuntime workspaceUrl
        (enclose "id: x\n".toList "b".toList) = .ok document ∧
      Injected workspaceRuntime workspaceUrl workspaceEntries "b".toList document) ∧
      ∃ document, injectInto workspaceDump workspaceRuntime workspaceUrl "b".toList =
          .ok document ∧
        Injected workspaceRuntime workspaceUrl [] "\nb".toList document := by
  constructor
  · obtain ⟨-, fencedText, -⟩ := remote_url_is_injected workspaceDump workspaceRuntime
      workspaceUrl (enclose "id: x\n".toList "b".toList)
    apply fencedText "id: x".toList "b".toList workspaceEntries ?_ rfl
    · intro _
      exact workspaceDump_emits_file
    · exact ⟨rfl, by decide⟩
  · obtain ⟨-, -, absentText⟩ := remote_url_is_injected workspaceDump workspaceRuntime
      workspaceUrl "b".toList
    exact absentText rfl workspaceDump_emits_remote

/-- A text without front matter is no longer the body, and where the first delimiter is
padded the front matter becomes text although the parser reads it. -/
theorem text_and_padded_block_are_not_kept :
    (workspaceRuntime.parseFrontmatter "b".toList = .ok ([], "b".toList) ∧
      ∀ document, injectInto workspaceDump workspaceRuntime workspaceUrl "b".toList =
          .ok document →
        ¬Injected workspaceRuntime workspaceUrl [] "b".toList document) ∧
      workspaceRuntime.parseFrontmatter "--- \nid: x\n---\nb".toList =
          .ok (workspaceEntries, "b".toList) ∧
        ∀ document, injectInto workspaceDump workspaceRuntime workspaceUrl
            "--- \nid: x\n---\nb".toList = .ok document →
          ¬Injected workspaceRuntime workspaceUrl workspaceEntries "b".toList document := by
  refine ⟨⟨rfl, ?_⟩, rfl, ?_⟩
  · rintro document ⟨⟩ ⟨found, parsed, -, -⟩
    cases parsed
  · rintro document ⟨⟩ ⟨found, parsed, -, -⟩
    cases parsed

end Workspace

end DataOlympus
