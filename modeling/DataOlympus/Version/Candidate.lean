import DataOlympus.Git.Graph
import DataOlympus.Python.JsonRead
import DataOlympus.Text.Splitlines
import DataOlympus.Version.Pep440

/-!
# Release candidates

The version of a candidate is computed from the commits behind the cut: the greatest impact
of their messages on the base, and their number.  A git repository is a commit graph with
messages and files, its tags, and the names that `rev-parse` resolves.
-/

namespace DataOlympus.Version

open Lines Git

inductive VersionErrorCode where
  | badBranch
  | badIgnoreTags
  | gitError
  | badBootstrapCut
  | badRef
  | noMergeBase
  | multipleMergeBases
  | recutRequired
  | invalidStableTag
  | ambiguousStableTag
  | badAdoption
  | hotfixScope
  | adoptionUnratified
  | badGaDecision
  | missingTagsInReleasedProduct
  | badBootstrap
  | bootstrapMismatch
  | malformedCommit
  deriving DecidableEq

structure VersionError where
  code : VersionErrorCode
  message : Text
  deriving DecidableEq

/-- What `compute_version` raises. -/
inductive Failure where
  | versionError (error : VersionError)
  /-- An integer has too many digits to be read or printed. -/
  | valueError
  deriving DecidableEq

def Failure.raise {α : Type} (code : VersionErrorCode) (message : String) : Except Failure α :=
  .error (.versionError ⟨code, message.toList⟩)

/-- The check of a condition. -/
def require (condition : Bool) (code : VersionErrorCode) (message : Text) :
    Except Failure Unit :=
  if condition then .ok () else .error (.versionError ⟨code, message⟩)

/-! ## Tags and messages -/

/-- `_STABLE.fullmatch(tag)`. -/
def isStable : Text → Bool
  | 'v' :: version => (SemVer.readCore version).isSome
  | _ => false

/-- `_PRERELEASE.fullmatch(tag)`. -/
def isPrerelease : Text → Bool
  | 'v' :: version => (SemVer.read version).any fun found => !found.prerelease.isEmpty
  | _ => false

/-- `re.match(r"v[0-9]", tag)` without one of the strict forms. -/
def isMalformed (tag : Text) : Bool :=
  (match tag with
    | 'v' :: c :: _ => c.isDigit
    | _ => false) && !isStable tag && !isPrerelease tag

/-- `_version(tag)` of a stable tag. -/
def version (tag : Text) : Except Failure (Nat × Nat × Nat) :=
  match SemVer.readCore (tag.drop 1) with
  | some numbers =>
      if ((tag.drop 1).splitOn '.').all fun part => part.length ≤ maxStrDigits then .ok numbers
      else .error .valueError
  | none => .error .valueError

/-- The scope of a subject is passed over. -/
def skipScope (isScope : Char → Bool) : Text → Option Text
  | '(' :: inner =>
      match inner.dropWhile isScope with
      | ')' :: rest => some rest
      | _ => none
  | rest => some rest

def skipBang : Text → Text
  | '!' :: rest => rest
  | rest => rest

/-- A character of a scope. -/
def isScopeChar (c : Char) : Bool :=
  c.isLower || c.isDigit || c ∈ ['.', '_', '/', '-']

/-- `_SUBJECT.fullmatch(subject)`. -/
def isSubject (subject : Text) : Bool :=
  let rest := subject.dropWhile Char.isLower
  !(subject.takeWhile Char.isLower).isEmpty && !(['(', ')'].isPrefixOf rest) &&
    match (skipScope isScopeChar rest).map skipBang with
    | some (':' :: ' ' :: c :: more) => !isSpace c && '\n' ∉ more
    | _ => false

/-- `_FOOTER.match(line)`. -/
def isFooter (line : Text) : Bool :=
  ["BREAKING CHANGE: ".toList, "BREAKING-CHANGE: ".toList].any fun mark =>
    mark.isPrefixOf line && (line.drop mark.length).head?.any fun c => !isSpace c

/-- `_BREAKING_FOOTER.search(body)`. -/
def hasBreakingFooter (body : Text) : Bool :=
  (splitLines body).any fun line =>
    ["BREAKING CHANGE:".toList, "BREAKING-CHANGE:".toList].any fun mark => mark.isPrefixOf line

/-- `classify(subject, body)`. -/
def classify (subject body : Text) : Option Text × Bool :=
  let kind := subject.takeWhile Char.isLower
  match skipScope (· ≠ ')') (subject.dropWhile Char.isLower) with
  | some rest =>
      match skipBang rest with
      | ':' :: c :: _ =>
          if kind.isEmpty || !isSpace c then (none, false)
          else (some kind, rest.head? = some '!' || hasBreakingFooter body)
      | _ => (none, false)
  | none => (none, false)

/-- `_impact(message)`. -/
def impact (message : Text) : Except Failure Nat :=
  let subject := message.takeWhile (· ≠ '\n')
  let body := (message.dropWhile (· ≠ '\n')).drop 1
  if isSubject subject then
    let (kind, breaking) := classify subject (joinLines ((splitlines body).filter isFooter))
    .ok (if breaking then 3 else if kind = some "feat".toList then 2
      else if kind = some "fix".toList then 1 else 0)
  else .error (.versionError
    ⟨.malformedCommit, "malformed commit: ".toList ++ subject.take 80⟩)

example : impact "feat(api): add it\n\nBREAKING CHANGE: gone\n".toList = .ok 3 := by decide

/-! ## The repository -/

/-- A commit with the files of its tree, as `git show` prints them. -/
structure HistoryCommit where
  sha : Text
  parents : List Nat
  message : Text
  files : List (Text × Text)

/-- A repository.  A number stands for the commit with that place. -/
structure Repository where
  commits : List HistoryCommit
  older : ∀ (child : Nat) (commit : HistoryCommit), commits[child]? = some commit →
    ∀ parent ∈ commit.parents, parent < child
  /-- The tags in the order `git tag` lists them. -/
  tags : List (Text × Nat)
  tags_known : ∀ tag ∈ tags, tag.2 < commits.length
  /-- `git rev-parse` of a name that is not the full name of a tag. -/
  revParse : Text → Option Nat
  revParse_known : ∀ {name commit}, revParse name = some commit → commit < commits.length
  isShallow : Bool
  isSha256 : Bool
  /-- The lines of `git diff --no-ext-diff --name-status`. -/
  changes : Nat → Nat → List Text

namespace Repository

variable (git : Repository)

def graph : CommitGraph where
  parents := git.commits.map HistoryCommit.parents
  older := by
    intro child earlier known
    rw [List.getElem?_map] at known
    obtain ⟨commit, found, rfl⟩ := Option.map_eq_some_iff.mp known
    exact git.older child commit found

/-- `git.resolve(f"refs/tags/{tag}")` before its error is known. -/
def tagCommit (tag : Text) : Option Nat :=
  git.tags.lookup tag

def badRef : Failure :=
  .versionError ⟨.badRef, "head and main must resolve to commits".toList⟩

/-- `git.resolve(ref)`. -/
def resolve (ref : Text) : Except Failure Nat :=
  (git.revParse ref).elim (.error badRef) .ok

/-- `git.resolve(f"refs/tags/{tag}")`. -/
def resolveTag (tag : Text) : Except Failure Nat :=
  (git.tagCommit tag).elim (.error badRef) .ok

/-- `git.ancestor(ancestor, head)`. -/
def ancestor (ancestor head : Nat) : Bool :=
  (git.graph.revList head ancestor).isEmpty

/-- `git.file(commit, path)`. -/
def file (commit : Nat) (path : String) : Option Text :=
  (git.commits[commit]?).bind fun found => found.files.lookup path.toList

/-- `git.run("tag", "--list", ...).splitlines()`. -/
def listed (tags : List (Text × Nat)) : List Text :=
  splitlines (tags.flatMap fun tag => tag.1 ++ ['\n'])

/-- `git merge-base --all`. -/
def mergeBases (first second : Nat) : List Nat :=
  let common := (List.range git.commits.length).reverse.filter fun commit =>
    git.graph.reaches first commit && git.graph.reaches second commit
  common.filter fun commit => common.all fun other =>
    other = commit || !git.graph.reaches other commit

/-- The messages of `git log --no-merges start..head`. -/
def messages (start head : Nat) : List Text :=
  (git.graph.revList start head).filterMap fun commit =>
    (git.commits[commit]?).bind fun found =>
      if found.parents.length ≤ 1 then some found.message else none

end Repository

/-! ## The computation -/

/-- What the caller passes; a standard file is given by what reading it yields. -/
structure Arguments where
  branch : Text
  /-- The values for `cut` and `target`. -/
  bootstrap : Option (Option Text × Option Text) := none
  adoptionRatified : Option Text := none
  standardFile : Option (Option Text) := none
  extensionRatified : Option Text := none
  extensionStandardFile : Option (Option Text) := none
  adoptionDryRun : Bool := false
  ignoreTags : List Text := []
  today : Date

def Arguments.isHotfix (args : Arguments) : Bool :=
  args.branch = "hotfix/new".toList

/-- The Python library. -/
structure Library where
  json : JsonModule
  /-- `date.fromisoformat(text)`. -/
  dateFromIsoformat : Text → Option Date

/-- A full hexadecimal object name. -/
def isObjectName (length : Nat) (name : Text) : Bool :=
  name.length = length && name.all fun c => c ∈ "0123456789abcdefABCDEF".toList

/-- `max(tags, key=_version)`. -/
def maxTag : List Text → Except Failure Text
  | [] => .error .valueError
  | first :: rest => do
      let numbers ← version first
      let best ← rest.foldlM (fun best tag => do
        let numbers ← version tag
        .ok (if SemVer.CoreLt best.2 numbers then (tag, numbers) else best)) (first, numbers)
      .ok best.1

/-- The text of a string without surrogates. -/
def scalars (s : PyStr) : Option Text :=
  s.mapM fun
    | .scalar c => some c
    | .surrogate _ => none

/-- The tag of the base that an adoption record names. -/
def recordedTag : Value → Option Text
  | .dict entries =>
      match Mapping.get entries "base" with
      | some (.str base) => (scalars base).bind fun base =>
          if isStable ('v' :: base) then some ('v' :: base) else none
      | _ => none
  | _ => none

/-- The anchor that an adoption record names. -/
def recordedAnchor (length : Nat) : Value → Option Text
  | .dict entries =>
      match Mapping.get entries "anchor" with
      | some (.str anchor) => (scalars anchor).filter (isObjectName length)
      | _ => none
  | _ => none

def adoptionPath : String :=
  "release/ADOPTION.json"

/-- `_adoption_base(git, cut, tags, every_tag)`. -/
def adoptionBase (library : Library) (git : Repository) (cut : Nat) (tags everyTag : List Text) :
    Except Failure (Option Text) :=
  match git.file cut adoptionPath with
  | none => .ok none
  | some raw => do
      let malformed := everyTag.filter isMalformed
      require malformed.isEmpty .invalidStableTag
        ("non-strict version tags in repository: ".toList ++ ", ".toList.intercalate malformed)
      let record ← (library.json.loads raw).elim
        (Failure.raise .badAdoption "adoption record must be a JSON object") .ok
      let refused := "record must name untagged cut and highest stable base"
      let length := ((git.commits[cut]?).map fun commit => commit.sha.length).getD 0
      match recordedAnchor length record, recordedTag record with
      | some name, some tag => do
          require (tag ∈ tags) .badAdoption refused.toList
          let highest ← maxTag tags
          require (highest = tag) .badAdoption refused.toList
          let base ← git.resolveTag tag
          require (git.ancestor base cut) .badAdoption refused.toList
          let anchor ← (git.revParse name).elim
            (Failure.raise .badAdoption "anchor must resolve to a commit") .ok
          require (git.graph.parentsOf cut = [anchor] && (git.file anchor adoptionPath).isNone)
            .badAdoption "anchor must be sole parent and have no adoption record".toList
          require (1 ≤ (git.graph.revList base anchor).length) .badAdoption
            "base tag must be a strict ancestor of the anchor".toList
          require (git.changes anchor cut = ["A\trelease/ADOPTION.json".toList]) .badAdoption
            "cut must add only release/ADOPTION.json".toList
          .ok (some tag)
      | _, _ => Failure.raise .badAdoption refused

/-- The heading of an amendment. -/
def isHeading (amendment line : Text) : Bool :=
  ["## Amendment ".toList, "## Proposed amendment ".toList].any fun mark =>
    line = mark ++ amendment ||
      ((mark ++ amendment ++ ": ".toList).isPrefixOf line &&
        mark.length + amendment.length + 2 < line.length)

/-- The lines of the section of an amendment. -/
def sectionOf (amendment : Text) (lines : List Text) : Option (List Text) :=
  match lines.dropWhile fun line => !isHeading amendment line with
  | [] => none
  | _ :: rest => some (rest.takeWhile fun line =>
      !("### ".toList.isPrefixOf line || "## ".toList.isPrefixOf line))

/-- `[0-9]{4}-[0-9]{2}-[0-9]{2}`. -/
def isDateText (text : Text) : Bool :=
  text.length = 10 && (text.zip "0000-00-00".toList).all fun (c, shape) =>
    if shape = '-' then c = '-' else c.isDigit

/-- `_check_ratification(amendment, ratified, standard_file, today)`. -/
def checkRatification (library : Library) (today : Date) (amendment : String) (ratified : Text)
    (standard : Option (Option Text)) : Except Failure Unit :=
  let date := ratified.take 10
  let reference := ratified.drop 11
  let matched := isDateText date && (ratified.drop 10).head? = some ':' && !reference.isEmpty &&
    reference.all fun c => !isSpace c
  let valid := matched && ((library.dateFromIsoformat date).any (· ≤ today)) &&
    (standard.bind id).any fun text =>
      (sectionOf amendment.toList (splitlines (universalNewlines text))).any fun lines =>
        "Ratification: ".toList ++ date ∈ lines
  require valid .adoptionUnratified ("amendment ".toList ++ amendment.toList ++
    " ratification requires YYYY-MM-DD:<ref>, a non-future ".toList ++
    "UTC date, and a matching Ratification line under ## Amendment ".toList ++ amendment.toList ++
    " or ## Proposed amendment ".toList ++ amendment.toList ++
    " before the next section in its standard file".toList)

/-- The ratifications of an adoption: whether none is missing. -/
def checkRatifications (library : Library) (args : Arguments) : Except Failure Bool := do
  let given := [("1.3", args.adoptionRatified, args.standardFile),
    ("1.5", args.extensionRatified, args.extensionStandardFile)]
  given.forM fun (amendment, ratified, standard) =>
    match ratified with
    | some ratified => checkRatification library args.today amendment ratified standard
    | none => .ok ()
  let missing := (given.filter fun entry => entry.2.1.isNone).map fun entry => entry.1.toList
  require (missing.isEmpty || args.adoptionDryRun) .adoptionUnratified
    ("amendment ".toList ++ " and ".toList.intercalate missing ++
      " ratification missing: pass --adoption-ratified and ".toList ++
      "--extension-ratified YYYY-MM-DD:<ref> or dry-run".toList)
  .ok missing.isEmpty

/-- The commits `head` and `main` and their merge base. -/
def freezeRefs (git : Repository) (args : Arguments) (head main : Text) :
    Except Failure (Nat × Nat × Nat) := do
  require (args.branch ∈ ["release/new".toList, "hotfix/new".toList]) .badBranch
    "expected release/new or hotfix/new".toList
  require (args.ignoreTags.all isStable) .badIgnoreTags
    "ignore_tags must be exact vX.Y.Z names".toList
  require (!git.isShallow) .gitError
    "full history and tags required; fetch before computing".toList
  require ((args.bootstrap.bind Prod.fst).all (isObjectName (if git.isSha256 then 64 else 40)))
    .badBootstrapCut "bootstrap cut must be a full hexadecimal SHA".toList
  let h ← git.resolve head
  let m ← git.resolve main
  match git.mergeBases m h with
  | [] => Failure.raise .noMergeBase "no common ancestor; check full history and refs"
  | [b] => do
      require (git.ancestor m h) .recutRequired
        "main advanced; preserve pending work and recut".toList
      .ok (h, m, b)
  | bases => .error (.versionError ⟨.multipleMergeBases,
      "expected one merge base, found ".toList ++ number bases.length⟩)

/-- The stable tags of the repository that are not ignored. -/
def allStable (git : Repository) (args : Arguments) : List Text :=
  (Repository.listed git.tags).filter fun tag => isStable tag && !args.ignoreTags.contains tag

/-- The stable tags on the cut. -/
def stableAt (git : Repository) (cut : Nat) : List Text :=
  (Repository.listed (git.tags.filter fun tag => tag.2 = cut)).filter isStable

/-- A hotfix starts from the highest stable tag. -/
def checkHotfixScope (git : Repository) (args : Arguments) (stable : List Text)
    (base : Option Text) : Except Failure Unit :=
  if args.isHotfix then do
    let refused := "hotfix/new requires the current stable main tag".toList
    require (!stable.isEmpty) .hotfixScope refused
    let highest ← maxTag (allStable git args)
    require (base = some highest) .hotfixScope refused
  else .ok ()

/-- The tag of the base, and whether it is adopted. -/
def findBase (library : Library) (git : Repository) (args : Arguments) (cut : Nat) :
    Except Failure (Option Text × Bool) := do
  let tags := Repository.listed git.tags
  let invalid := (Repository.listed (git.tags.filter fun tag => tag.2 = cut)).filter isMalformed
  require invalid.isEmpty .invalidStableTag
    ("non-strict version tags: ".toList ++ ", ".toList.intercalate invalid)
  let stable := stableAt git cut
  require (stable.all fun tag => !args.ignoreTags.contains tag) .badIgnoreTags
    "an ignored tag cannot tag the cut".toList
  require (stable.length ≤ 1) .ambiguousStableTag "more than one stable tag on cut".toList
  -- A stable tag on the cut takes precedence even if an adoption record remains.
  let base ← (match stable with
    | tag :: _ => .ok (some tag)
    | [] => adoptionBase library git cut (allStable git args) tags)
  checkHotfixScope git args stable base
  .ok (base, base.isSome && stable.isEmpty)

def decisionPath : String :=
  "release/GA-DECISION"

/-- Whether the head holds the decision for general availability. -/
def gaDecision (git : Repository) (args : Arguments) (head : Nat) : Except Failure Bool :=
  if args.isHotfix then .ok false
  else
    match git.file head decisionPath with
    | none => .ok false
    | some decision => do
        require (strip decision = "approved".toList) .badGaDecision
          "release/GA-DECISION must contain approved".toList
        .ok true

/-- The target of a product that was never released. -/
def bootstrapTarget (git : Repository) (args : Arguments) (ga : Bool) (cut : Nat) :
    Except Failure Text := do
  require (allStable git args).isEmpty .missingTagsInReleasedProduct
    "no stable tag on cut".toList
  let refused := "first release needs a recorded cut and target"
  match args.bootstrap with
  | some (some recorded, some target) => do
      require (!recorded.isEmpty && target ∈ ["0.1.0".toList, "1.0.0".toList] &&
        (target ≠ "1.0.0".toList || ga)) .badBootstrap refused.toList
      require (git.revParse recorded = some cut) .bootstrapMismatch
        "bootstrap cut does not equal merge base".toList
      .ok target
  | _ => Failure.raise .badBootstrap refused

/-- The loop over the messages. -/
def highestImpact (hotfix : Bool) : Nat → List Text → Except Failure Nat
  | highest, [] => .ok highest
  | highest, message :: rest => do
      let found ← impact message
      require (!(hotfix && 1 < found)) .hotfixScope "hotfix/new accepts fixes only".toList
      highestImpact hotfix (max highest found) rest

/-- The numbers of the target. -/
def bump (ga : Bool) (highest : Nat) : Nat × Nat × Nat → Nat × Nat × Nat
  | (major, minor, patch) =>
      if major = 0 ∧ ga then (1, 0, 0)
      else if highest = 3 then if major ≠ 0 then (major + 1, 0, 0) else (0, minor + 1, 0)
      else if highest = 2 ∧ major ≠ 0 then (major, minor + 1, 0)
      else (major, minor, patch + 1)

/-- A number in an f-string. -/
def printed (n : Nat) : Except Failure Text :=
  if (number n).length ≤ maxStrDigits then .ok (number n) else .error .valueError

def printTarget : Nat × Nat × Nat → Except Failure Text
  | (major, minor, patch) => do
      let first ← printed major
      let second ← printed minor
      let third ← printed patch
      .ok (first ++ '.' :: (second ++ '.' :: third))

/-- The dictionary that `compute_version` returns; commits are given by their numbers. -/
structure Result where
  base : Option Text
  B : Nat
  H : Nat
  M : Nat
  N : Nat
  target : Text
  candidate : Text
  pypiVersion : Text
  promotable : Bool
  /-- Whether the adoption is ratified, and whether its record is retired. -/
  adoption : Option (Bool × Bool)
  deriving DecidableEq

/-- The commit behind which the messages count: the tag of an adopted base, or the cut. -/
def startOf (git : Repository) (cut : Nat) (adoption : Bool) :
    Option Text → Except Failure Nat
  | some tag => if adoption then git.resolveTag tag else .ok cut
  | none => .ok cut

def targetOf (git : Repository) (args : Arguments) (cut : Nat) (ga : Bool) (highest : Nat) :
    Option Text → Except Failure Text
  | some tag => version tag >>= fun numbers => printTarget (bump ga highest numbers)
  | none => bootstrapTarget git args ga cut

/-- `compute_version`. -/
def computeVersion (library : Library) (git : Repository) (args : Arguments) (head main : Text) :
    Except Failure Result := do
  let (h, m, b) ← freezeRefs git args head main
  let (base, adoption) ← findBase library git args b
  let ratified ← (if adoption then checkRatifications library args else .ok false)
  let ga ← gaDecision git args h
  -- The record of a product without a base is checked before the messages are read.
  let _ ← (if base.isNone then bootstrapTarget git args ga b else .ok [])
  let count := (git.graph.revList b h).length
  let start ← startOf git b adoption base
  let highest ← highestImpact args.isHotfix 0 (git.messages start h)
  let target ← targetOf git args b ga highest base
  let n ← printed count
  let retired := (git.file h adoptionPath).isNone
  .ok {
    base := base
    B := b
    H := h
    M := m
    N := count
    target := target
    candidate := target ++ '-' :: ((if args.isHotfix then "hotfix.rc".toList else "rc".toList) ++
      '.' :: n)
    pypiVersion := target ++ ((if args.isHotfix then ".dev".toList else "rc".toList) ++ n)
    promotable := 0 < count && retired && (!adoption || ratified)
    adoption := if adoption then some (ratified, retired) else none }

end DataOlympus.Version
