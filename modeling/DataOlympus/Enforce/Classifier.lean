import DataOlympus.Text.Case
import DataOlympus.Text.Match

/-!
# The intent classifier

Which signals of a governed decision an action or an intent carries, and which signals of
an action the signals of a consult cover.
-/

namespace DataOlympus

open Lines

/-- A signal: a keyword in a text, a command fragment, or a path pattern. -/
inductive Signal where
  | keyword (keyword : Text)
  | command (fragment : Text)
  | path (glob : Text)
  deriving DecidableEq

/-- `GOVERNED_KEYWORDS`. -/
def governedKeywords : List Text :=
  ["library", "dependency", "dependencies", "framework", "package", "pattern", "migration",
    "migrate", "refactor", "architecture", "api design", "endpoint", "schema", "auth",
    "authorization", "authentication", "rls", "secret", "convention", "standard"].map
    String.toList

/-- `GOVERNED_PATH_GLOBS`. -/
def governedPathGlobs : List Text :=
  ["pyproject.toml", "*/pyproject.toml", "package.json", "*/package.json",
    "*/requirements*.txt", "requirements*.txt", "*/go.mod", "go.mod", "*/Cargo.toml",
    "Cargo.toml", "*/pom.xml", "*/migrations/*", "*/migration/*", "*/schema/*",
    "*/schema.sql", "*.sql", "Dockerfile", "*/Dockerfile", "*/docker-compose*.yml",
    "docker-compose*.yml"].map String.toList

/-- `GOVERNED_COMMAND_PATTERNS`. -/
def governedCommandPatterns : List Text :=
  ["pip install", "pip3 install", "uv add", "uv pip install", "poetry add", "npm install",
    "npm i ", "yarn add", "pnpm add", "apt install", "apt-get install", "brew install",
    "go get", "cargo add", "gem install", "bundle add"].map String.toList

/-- `_DEPENDENCY_KEYWORDS`. -/
def dependencyKeywords : List Text :=
  ["dependency", "dependencies", "package", "library"].map String.toList

/-- `_MIGRATION_KEYWORDS`. -/
def migrationKeywords : List Text :=
  ["migration", "migrate", "schema"].map String.toList

/-- `_SCHEMA_KEYWORDS`. -/
def schemaKeywords : List Text :=
  ["schema", "migration", "migrate"].map String.toList

/-- `SIGNAL_FAMILY_COVERAGE.get(fam, ())`. -/
def signalFamilyCoverage : Signal → List Text
  | .path glob =>
      if glob ∈ ["pyproject.toml", "package.json", "requirements*.txt", "go.mod", "Cargo.toml",
          "pom.xml"].map String.toList then dependencyKeywords
      else if glob ∈ ["migrations/*", "migration/*"].map String.toList then migrationKeywords
      else if glob ∈ ["schema/*", "schema.sql", "*.sql"].map String.toList then schemaKeywords
      else []
  | .command fragment =>
      if fragment ∈ governedCommandPatterns.map strip then dependencyKeywords else []
  | .keyword _ => []

/-- `signal_family(signal)`. -/
def Signal.family : Signal → Signal
  | .path ('*' :: '/' :: glob) => .path glob
  | signal => signal

/-- The signals of a consult clear a signal of an action. -/
def Signal.coveredBy (signal : Signal) (coverage : List Signal) : Bool :=
  let families := coverage.map Signal.family
  signal.family ∈ families ||
    (signalFamilyCoverage signal.family).any fun keyword => .keyword keyword ∈ families

/-- `uncovered_signals(signals, coverage)`. -/
def uncoveredSignals (signals coverage : List Signal) : List Signal :=
  signals.filter fun signal => !signal.coveredBy coverage

/-- `IntentClassifier`. -/
structure Classifier where
  keywords : List Text
  pathGlobs : List Text
  commandPatterns : List Text

/-- What `classifier_from_config` reads. -/
structure GovernedExtras where
  keywords : List Text
  pathGlobs : List Text
  commandPatterns : List Text

/-- `classifier_from_config(config)`. -/
def Classifier.fromConfig (unicode : Unicode) (extras : GovernedExtras) : Classifier where
  keywords := (governedKeywords ++ extras.keywords).map unicode.lower
  pathGlobs := governedPathGlobs ++ extras.pathGlobs
  commandPatterns := (governedCommandPatterns ++ extras.commandPatterns).map unicode.lower

/-- `MAX_CONSULT_INTENT_CHARS`. -/
def maxConsultIntentChars : Nat := 4000

/-- `path.rsplit("/", 1)[-1]`. -/
def baseName (path : Text) : Text :=
  (path.reverse.takeWhile (· ≠ '/')).reverse

/-- `token.rstrip(".,;:!?)")`. -/
def trimSentence (token : Text) : Text :=
  (token.reverse.dropWhile fun c => c ∈ ".,;:!?)".toList).reverse

namespace Classifier

variable (unicode : Unicode) (classifier : Classifier)

/-- `_keyword_signals(text)`. -/
def keywordSignals (text : Text) : List Signal :=
  (classifier.keywords.filter fun keyword => searchWord unicode.isWord keyword none text).map
    .keyword

/-- `_command_signals(text)`. -/
def commandSignals (text : Text) : List Signal :=
  (classifier.commandPatterns.filter fun pattern => pattern <:+: unicode.lower text).map
    fun pattern => .command (strip pattern)

/-- `_path_signal(path)`. -/
def pathSignal (path : Text) : Option Signal :=
  let p := path.map fun c => if c = '\\' then '/' else c
  (classifier.pathGlobs.find? fun glob => fnmatch p glob || fnmatch (baseName p) glob).map .path

/-- `classify(intent, action_path, action_diff)`.  An empty path is none. -/
def classify (intent : Text) (actionPath : Option Text) (actionDiff : Text) : List Signal :=
  match actionPath.filter fun path => !path.isEmpty with
  | some path => classifier.keywordSignals unicode (unicode.lower intent) ++
      classifier.commandSignals unicode actionDiff ++ (classifier.pathSignal path).toList
  | none => classifier.keywordSignals unicode (unicode.lower (intent ++ ' ' :: actionDiff)) ++
      classifier.commandSignals unicode actionDiff

/-- The texts of an intent that are tried as paths. -/
def pathTokens (intent : Text) : List Text :=
  let tokens := words (fun c => isSpace c || isQuote c) intent
  tokens ++ tokens.map trimSentence ++ quotedSpans intent

/-- The loop of `coverage` over the tokens. -/
def addPathSignals (signals : List Signal) : List Text → List Signal
  | [] => signals
  | token :: rest =>
      match classifier.pathSignal token with
      | some signal =>
          if signal ∈ signals then addPathSignals signals rest
          else addPathSignals (signals ++ [signal]) rest
      | none => addPathSignals signals rest

/-- `coverage(intent)`. -/
def coverage (intent : Text) : List Signal :=
  classifier.addPathSignals
    (classifier.keywordSignals unicode (unicode.lower intent) ++
      classifier.commandSignals unicode intent) (pathTokens intent)

/-- `command_pattern(signal)`. -/
def commandPattern : Signal → Option Text
  | .command fragment => classifier.commandPatterns.find? fun pattern => strip pattern = fragment
  | _ => none

variable {unicode classifier} {intent diff text path : Text} {actionPath : Option Text}
  {keyword glob fragment : Text} {signal : Signal} {signals : List Signal} {tokens : List Text}

theorem mem_keywordSignals : signal ∈ classifier.keywordSignals unicode text ↔
    ∃ keyword ∈ classifier.keywords, searchWord unicode.isWord keyword none text = true ∧
      signal = .keyword keyword := by
  unfold keywordSignals
  simp only [List.mem_map, List.mem_filter, and_assoc, eq_comm (a := signal)]

theorem mem_commandSignals : signal ∈ classifier.commandSignals unicode text ↔
    ∃ pattern ∈ classifier.commandPatterns, pattern <:+: unicode.lower text ∧
      signal = .command (strip pattern) := by
  unfold commandSignals
  simp only [List.mem_map, List.mem_filter, decide_eq_true_eq, and_assoc, eq_comm (a := signal)]

theorem exists_path_of_pathSignal (matched : classifier.pathSignal path = some signal) :
    ∃ glob ∈ classifier.pathGlobs, signal = .path glob := by
  obtain ⟨glob, found, rfl⟩ := Option.map_eq_some_iff.mp matched
  exact ⟨glob, List.mem_of_find?_eq_some found, rfl⟩

/-- The loop collects the signals of the tokens. -/
theorem mem_addPathSignals : signal ∈ classifier.addPathSignals signals tokens ↔
    signal ∈ signals ∨ ∃ token ∈ tokens, classifier.pathSignal token = some signal := by
  induction tokens generalizing signals with
  | nil => simp [addPathSignals]
  | cons token rest ih =>
      rw [addPathSignals]
      cases matched : classifier.pathSignal token with
      | none =>
          simp only [ih, List.mem_cons, exists_eq_or_imp, matched, reduceCtorEq, false_or]
      | some found =>
          simp only [List.mem_cons, exists_eq_or_imp, matched, Option.some.injEq]
          split
          · rename_i listed
            rw [ih]
            constructor
            · rintro (before | later)
              · exact .inl before
              · exact .inr (.inr later)
            · rintro (before | rfl | later)
              · exact .inl before
              · exact .inl listed
              · exact .inr later
          · rw [ih, List.mem_append, List.mem_singleton, or_assoc, eq_comm (a := signal)]

/-- What a consult covers. -/
theorem mem_coverage : signal ∈ classifier.coverage unicode intent ↔
    signal ∈ classifier.keywordSignals unicode (unicode.lower intent) ∨
      signal ∈ classifier.commandSignals unicode intent ∨
        ∃ token ∈ pathTokens intent, classifier.pathSignal token = some signal := by
  unfold coverage
  rw [mem_addPathSignals, List.mem_append, or_assoc]

/-- An empty text holds no word. -/
theorem keywordSignals_nil : classifier.keywordSignals unicode [] = [] := by
  unfold keywordSignals
  rw [List.map_eq_nil_iff, List.filter_eq_nil_iff]
  intro keyword _
  rw [Bool.not_eq_true]
  rfl

/-- The signals of an action with a path. -/
theorem mem_classify_path (named : path ≠ []) :
    signal ∈ classifier.classify unicode [] (some path) diff ↔
      signal ∈ classifier.commandSignals unicode diff ∨
        classifier.pathSignal path = some signal := by
  have kept : (some path).filter (fun path : Text => !path.isEmpty) = some path := by
    cases path with
    | nil => exact absurd rfl named
    | cons c rest => rfl
  unfold classify
  rw [kept]
  have no_word : unicode.lower [] = [] := rfl
  simp only [no_word, keywordSignals_nil, List.nil_append, List.mem_append, Option.mem_toList]

/-- The signals of an action without a path. -/
theorem mem_classify_pathless (unnamed : actionPath.filter (fun path => !path.isEmpty) = none) :
    signal ∈ classifier.classify unicode intent actionPath diff ↔
      signal ∈ classifier.keywordSignals unicode (unicode.lower (intent ++ ' ' :: diff)) ∨
        signal ∈ classifier.commandSignals unicode diff := by
  unfold classify
  rw [unnamed, List.mem_append]

/-- The configured fragment behind the signal of a pattern. -/
theorem exists_commandPattern {pattern : Text} (listed : pattern ∈ classifier.commandPatterns) :
    ∃ first ∈ classifier.commandPatterns, strip first = strip pattern ∧
      classifier.commandPattern (.command (strip pattern)) = some first := by
  have configured : (classifier.commandPatterns.find? fun first =>
      strip first = strip pattern).isSome = true := by
    rw [List.find?_isSome]
    exact ⟨pattern, listed, by simp⟩
  obtain ⟨first, found⟩ := Option.isSome_iff_exists.mp configured
  have same := List.find?_some found
  exact ⟨first, List.mem_of_find?_eq_some found, of_decide_eq_true same, found⟩

variable {extras : GovernedExtras}

theorem lowered_of_mem_keywords (listed : keyword ∈ (fromConfig unicode extras).keywords) :
    unicode.Lowered keyword := by
  obtain ⟨_, _, rfl⟩ := List.mem_map.mp listed
  exact Unicode.lowered_lower

theorem lowered_of_mem_commandPatterns
    (listed : fragment ∈ (fromConfig unicode extras).commandPatterns) :
    unicode.Lowered fragment := by
  obtain ⟨_, _, rfl⟩ := List.mem_map.mp listed
  exact Unicode.lowered_lower

end Classifier

end DataOlympus
