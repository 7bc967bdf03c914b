import DataOlympus.Gate.Validate
import DataOlympus.Text.Case
import DataOlympus.Text.Regex

/-!
# The secret scan

A text is scanned for credentials by patterns.  Of the assignments of passwords and secrets
those are exempt whose value is a placeholder; but their values run on to the next blank, and
what they contain is not scanned again.
-/

namespace DataOlympus

open Lines Select

/-! ## The patterns -/

section Patterns

open Pattern

/-- `[A-Za-z0-9_]`. -/
def isWordAscii (c : Char) : Bool :=
  c.isAlphanum || c = '_'

/-- `[A-Za-z0-9_-]`. -/
def isKeyBody (c : Char) : Bool :=
  isWordAscii c || c = '-'

/-- `[A-Za-z0-9-]`. -/
def isHyphenated (c : Char) : Bool :=
  c.isAlphanum || c = '-'

/-- `[A-Za-z0-9_]` where case is ignored. -/
def isWordAnyCase (c : Char) : Bool :=
  isWordAscii c || c ∈ ['İ', 'ı', 'ſ', '\u212A']

/-- A letter of a lowercase word where case is ignored. -/
def ignoringCase (letter c : Char) : Bool :=
  c.toLower = letter || (letter = 's' && c = 'ſ')

/-- The letters of a lowercase word where case is ignored. -/
def literalIgnoringCase (word : String) : Pattern :=
  word.toList.foldr (fun letter later => .seq (.char (ignoringCase letter)) later) .empty

/-- `['"]`. -/
def isQuoteMark (c : Char) : Bool :=
  c = '\'' || c = '"'

/-- `_PRIVATE_KEY_RE`. -/
def privateKeyRe : Pattern :=
  sequence [literal "-----BEGIN ",
    optional (sequence [oneOf [literal "RSA", literal "EC", literal "OPENSSH", literal "DSA",
      literal "PGP"], literal " "]),
    literal "PRIVATE KEY-----"]

/-- `_LLM_PROVIDER_KEY_RE`. -/
def llmProviderKeyRe : Pattern :=
  sequence [.notBehind Char.isAlphanum,
    oneOf [
      sequence [literal "sk-ant-", .repeated isKeyBody 24 (some 255)],
      sequence [literal "sk-proj-", .repeated isKeyBody 24 (some 255)],
      sequence [literal "sk-svcacct-", .repeated isKeyBody 24 (some 255)],
      sequence [literal "sk-or-v1-", .repeated Char.isAlphanum 32 (some 255)],
      sequence [literal "hf_", .repeated Char.isAlphanum 32 (some 255)],
      sequence [literal "gsk_", .repeated Char.isAlphanum 20 (some 255)],
      sequence [literal "xai-", .repeated isWordAscii 32 (some 255)],
      sequence [literal "sk-", .repeated Char.isAlphanum 32 (some 255)]],
    .notAhead Char.isAlphanum]

/-- `_GOOGLE_API_KEY_RE`. -/
def googleApiKeyRe : Pattern :=
  sequence [.notBehind Char.isAlphanum, literal "AIza", .repeated isKeyBody 35 (some 35),
    .notAhead isHyphenated]

/-- `_GENERIC_CRED_RE`. -/
def genericCredRe : Pattern :=
  sequence [.either .start (.char fun c => !isWordAnyCase c),
    .repeated isWordAnyCase 0 (some 40),
    oneOf [literalIgnoringCase "password", literalIgnoringCase "passwd",
      literalIgnoringCase "secret"],
    .repeated isSpace 0 none,
    .char fun c => c = ':' || c = '=',
    .repeated isSpace 0 none,
    .group "1" (.repeated isQuoteMark 0 (some 1)),
    .group "value" (.repeated (fun c => !(isSpace c || isQuoteMark c)) 1 (some 200)),
    .back "1"]

variable (unicode : Unicode)

/-- `_GITHUB_TOKEN_RE`. -/
def githubTokenRe : Pattern :=
  sequence [.boundary unicode.isWord,
    oneOf [
      sequence [literal "gh", .char fun c => c ∈ "oprsu".toList, literal "_",
        .repeated Char.isAlphanum 20 (some 255)],
      sequence [literal "github_pat_", .repeated isWordAscii 20 (some 255)]],
    .boundary unicode.isWord]

/-- `_AWS_ACCESS_KEY_RE`. -/
def awsAccessKeyRe : Pattern :=
  sequence [.boundary unicode.isWord, oneOf [literal "AKIA", literal "ASIA"],
    .repeated (fun c => c.isDigit || c.isUpper) 16 (some 16), .boundary unicode.isWord]

/-- `_SLACK_TOKEN_RE`. -/
def slackTokenRe : Pattern :=
  sequence [.boundary unicode.isWord, literal "xox", .char fun c => c ∈ "bpars".toList,
    literal "-", .repeated isHyphenated 10 (some 200), .boundary unicode.isWord]

/-- `_CONN_STRING_RE`. -/
def connStringRe : Pattern :=
  sequence [.boundary unicode.isWord, .char Char.isAlpha,
    .repeated (fun c => c.isAlphanum || c ∈ "+.-".toList) 1 (some 20), literal "://",
    .repeated (fun c => !(isSpace c || c ∈ ":/@'\"".toList)) 1 (some 200), literal ":",
    .repeated (fun c => !(isSpace c || c ∈ "@/'\"".toList)) 1 (some 200), literal "@",
    .repeated (fun c => !(isSpace c || c ∈ "/'\"".toList)) 1 (some 200)]

/-- The built-in patterns before the one for assignments. -/
def tokenPatterns : List (String × Pattern) :=
  [("private_key_block", privateKeyRe), ("github_token", githubTokenRe unicode),
    ("aws_access_key_id", awsAccessKeyRe unicode), ("slack_token", slackTokenRe unicode),
    ("llm_provider_api_key", llmProviderKeyRe), ("google_api_key", googleApiKeyRe)]

/-- `_BUILTIN_PATTERNS`. -/
def builtinPatterns : List (String × Pattern) :=
  tokenPatterns unicode ++ [("generic_credential_assignment", genericCredRe),
    ("connection_string_password", connStringRe unicode)]

/-- No built-in pattern matches the empty text. -/
theorem minLength_pos {unicode : Unicode} {entry : String × Pattern}
    (member : entry ∈ builtinPatterns unicode) : 0 < entry.2.minLength := by
  have all : (builtinPatterns unicode).all fun entry => 0 < entry.2.minLength := rfl
  exact of_decide_eq_true (List.all_eq_true.mp all entry member)

end Patterns

/-! ## The scan -/

/-- `_PLACEHOLDER_VALUES`. -/
def placeholderValues : List Text :=
  ["", "changeme", "change_me", "change-me", "placeholder", "example", "redacted", "xxx",
    "xxxx", "todo", "fixme", "password", "secret", "test", "null", "none", "n/a",
    "your_password", "yourpassword"].map String.toList

section Scan

variable (unicode : Unicode)

/-- `_is_placeholder_value(value)`. -/
def isPlaceholderValue (value : Text) : Bool :=
  let v := (((strip value).dropWhile isQuoteMark).reverse.dropWhile isQuoteMark).reverse
  v.isEmpty || unicode.lower v ∈ placeholderValues ||
    v.head?.any (fun c => c ∈ "<\x7b$".toList) || (unicode.lower v).all (fun c => c = 'x') ||
    v.all (fun c => c = '*')

/-- The matches of a built-in pattern that the scan passes over. -/
def isExempt (name : String) (found : Match) : Bool :=
  name = "generic_credential_assignment" && isPlaceholderValue unicode (found.group "value")

/-- The start of the first match of a built-in pattern that counts. -/
def firstMatchStart (postimage : Text) (entry : String × Pattern) : Option Nat :=
  ((entry.2.finditer postimage).find? fun found => !isExempt unicode entry.1 found).map
    Match.start

/-- The earliest match, the first of several at one place. -/
def earliest (best : Option (Nat × String)) (found : String × Option Nat) :
    Option (Nat × String) :=
  match found.2 with
  | none => best
  | some start =>
      if best.all fun other => start < other.1 then some (start, found.1) else best

/-- `_line_of(content, index)`. -/
def lineOf (content : Text) (index : Nat) : Nat :=
  (content.take index).count '\n' + 1

/-- Where the operator's patterns are first found, each by its own search. -/
abbrev CustomPatterns : Type :=
  List (String × (Text → Option Nat))

/-- `scan_postimage_for_secrets(…)`: what it finds, which is nothing if the text is `ok`. -/
def scanPostimageForSecrets (custom : CustomPatterns) (postimage : Text) :
    Option SecretMatch :=
  let builtin := (builtinPatterns unicode).map fun entry =>
    (entry.1, firstMatchStart unicode postimage entry)
  let best := (builtin ++ custom.map fun entry => (entry.1, entry.2 postimage)).foldl earliest
    none
  best.map fun found => ⟨found.2.toList, lineOf postimage found.1⟩

variable {unicode}

theorem isSome_foldl_earliest {found : List (String × Option Nat)}
    {best : Option (Nat × String)} : (found.foldl earliest best).isSome = true ↔
      best.isSome = true ∨ ∃ entry ∈ found, entry.2.isSome = true := by
  induction found generalizing best with
  | nil => simp
  | cons entry later ih =>
      have step : (earliest best entry).isSome = true ↔
          best.isSome = true ∨ entry.2.isSome = true := by
        rw [earliest]
        cases entry.2 with
        | none => simp
        | some start =>
            cases best with
            | none => simp
            | some other =>
                dsimp only
                split <;> simp
      rw [List.foldl_cons, ih, step, or_assoc]
      simp only [List.mem_cons, exists_eq_or_imp]

/-- The scan finds something exactly if one of the patterns does. -/
theorem scan_isSome_iff {custom : CustomPatterns} {postimage : Text} :
    (scanPostimageForSecrets unicode custom postimage).isSome = true ↔
      (∃ entry ∈ builtinPatterns unicode,
        (firstMatchStart unicode postimage entry).isSome = true) ∨
      ∃ entry ∈ custom, (entry.2 postimage).isSome = true := by
  rw [scanPostimageForSecrets, Option.isSome_map, isSome_foldl_earliest]
  simp only [Option.isSome_none, Bool.false_eq_true, false_or, List.mem_append, or_and_right,
    exists_or, List.mem_map, exists_exists_and_eq_and]

/-- A pattern without exemptions is found exactly if it matches anywhere. -/
theorem firstMatchStart_isSome_iff {postimage : Text} {entry : String × Pattern}
    (member : entry ∈ builtinPatterns unicode)
    (counted : entry.1 ≠ "generic_credential_assignment") :
    (firstMatchStart unicode postimage entry).isSome = true ↔
      ∃ place, (entry.2.matchAt postimage place).isSome = true := by
  rw [firstMatchStart, Option.isSome_map, List.find?_isSome,
    ← Pattern.finditer_ne_nil_iff (minLength_pos member)]
  have counts : ∀ found, isExempt unicode entry.1 found = false := by
    intro found
    rw [isExempt, decide_eq_false counted, Bool.false_and]
  simp only [counts, Bool.not_false, and_true]
  constructor
  · rintro ⟨found, here⟩
    exact List.ne_nil_of_mem here
  · exact List.exists_mem_of_ne_nil _

end Scan

/-! ## Assignments -/

section Assignments

variable (unicode : Unicode)

/-- An assignment begins at a place, with a value that is no placeholder. -/
def SecretAt (text : Text) (place : Nat) : Prop :=
  ∃ found, genericCredRe.matchAt text place = some found ∧
    isPlaceholderValue unicode (found.group "value") = false

/-- If an assignment begins at a place, its value is a placeholder. -/
def isPlaceholderAt (text : Text) (place : Nat) : Bool :=
  (genericCredRe.matchAt text place).all fun found =>
    isPlaceholderValue unicode (found.group "value")

/-- Where the assignment of a placeholder that begins at a place ends. -/
def placeholderEnds (text : Text) : Nat → Option Nat :=
  exemptEnds (genericCredRe.ends text) (isPlaceholderAt unicode text)

/-- The place lies in the assignment of a placeholder.  Of those that overlap the one further
left counts. -/
def InPlaceholder (text : Text) (place : Nat) : Prop :=
  ∃ start < place, Chosen (placeholderEnds unicode text) 0 start ∧
    ∃ stop, placeholderEnds unicode text start = some stop ∧ place < stop

/-- Another pattern matches somewhere. -/
def OtherMatch (custom : CustomPatterns) (text : Text) : Prop :=
  (∃ entry ∈ builtinPatterns unicode, entry.1 ≠ "generic_credential_assignment" ∧
    ∃ place, (entry.2.matchAt text place).isSome = true) ∨
  ∃ entry ∈ custom, (entry.2 text).isSome = true

variable {unicode}

theorem secretAt_iff {text : Text} {place : Nat} : SecretAt unicode text place ↔
    (genericCredRe.ends text place).isSome = true ∧
      isPlaceholderAt unicode text place = false := by
  unfold SecretAt isPlaceholderAt Pattern.ends
  cases genericCredRe.matchAt text place with
  | none => simp
  | some found => simp

/-- The pattern for assignments is found exactly if a secret begins in no placeholder. -/
theorem genericCred_isSome_iff {text : Text} :
    (firstMatchStart unicode text
        ("generic_credential_assignment", genericCredRe)).isSome = true ↔
      ∃ place, SecretAt unicode text place ∧ ¬InPlaceholder unicode text place := by
  have visible : 0 < genericCredRe.minLength := by
    decide
  have counts : ∀ found, (!isExempt unicode "generic_credential_assignment" found) = true ↔
      isPlaceholderValue unicode (found.group "value") = false := by
    intro found
    rw [isExempt, decide_eq_true rfl, Bool.true_and, Bool.not_eq_true']
  have chosen : (∃ found ∈ genericCredRe.finditer text,
        isPlaceholderValue unicode (found.group "value") = false) ↔
      ∃ place, Chosen (genericCredRe.ends text) 0 place ∧
        isPlaceholderAt unicode text place = false := by
    constructor
    · rintro ⟨found, member, counted⟩
      obtain ⟨taken, here⟩ := (Pattern.mem_finditer_iff visible).mp member
      refine ⟨found.start, taken, ?_⟩
      rw [isPlaceholderAt, here]
      exact counted
    · rintro ⟨place, taken, counted⟩
      obtain ⟨found, here, secret⟩ := secretAt_iff.mpr ⟨(chosen_iff.mp taken).2.1, counted⟩
      have same := (Pattern.matchAt_bounds here).1
      refine ⟨found, (Pattern.mem_finditer_iff visible).mpr ?_, secret⟩
      rw [same]
      exact ⟨taken, here⟩
  rw [firstMatchStart, Option.isSome_map, List.find?_isSome]
  simp only [counts]
  rw [chosen, exists_chosen_not_exempt_iff]
  apply exists_congr
  intro place
  rw [← and_assoc, ← secretAt_iff, InPlaceholder]
  apply and_congr_right
  intro _
  simp only [not_exists, not_and, not_lt, placeholderEnds]

/-- The scan finds something exactly if another pattern matches, or a secret begins in no
placeholder. -/
theorem scan_reports_iff {custom : CustomPatterns} {text : Text} :
    (scanPostimageForSecrets unicode custom text).isSome = true ↔
      OtherMatch unicode custom text ∨
        ∃ place, SecretAt unicode text place ∧ ¬InPlaceholder unicode text place := by
  have generic : ("generic_credential_assignment", genericCredRe) ∈ builtinPatterns unicode :=
    List.mem_append_right _ List.mem_cons_self
  have alone : ∀ entry ∈ builtinPatterns unicode,
      entry.1 = "generic_credential_assignment" →
        entry = ("generic_credential_assignment", genericCredRe) := by
    intro entry member named
    simp only [builtinPatterns, tokenPatterns, List.cons_append, List.nil_append,
      List.mem_cons, List.not_mem_nil, or_false] at member
    rcases member with rfl | rfl | rfl | rfl | rfl | rfl | rfl | rfl
    all_goals first | rfl | simp at named
  rw [scan_isSome_iff, OtherMatch, ← genericCred_isSome_iff]
  constructor
  · rintro (⟨entry, member, found⟩ | operator)
    · by_cases named : entry.1 = "generic_credential_assignment"
      · rw [alone entry member named] at found
        exact .inr found
      · exact .inl (.inl ⟨entry, member, named,
          (firstMatchStart_isSome_iff member named).mp found⟩)
    · exact .inl (.inr operator)
  · rintro ((⟨entry, member, named, here⟩ | operator) | found)
    · exact .inl ⟨entry, member, (firstMatchStart_isSome_iff member named).mpr here⟩
    · exact .inr operator
    · exact .inl ⟨_, generic, found⟩

end Assignments

/-- A text with a secret is reported exactly if another pattern matches in it or one of its
secrets begins in no assignment of a placeholder. -/
theorem secret_is_reported_iff (unicode : Unicode) (custom : CustomPatterns) (text : Text) :
    ((∃ place, SecretAt unicode text place) →
        (scanPostimageForSecrets unicode custom text).isSome = true) ↔
      ((∀ place, SecretAt unicode text place → InPlaceholder unicode text place) →
        (∃ place, SecretAt unicode text place) → OtherMatch unicode custom text) := by
  rw [scan_reports_iff]
  constructor
  · intro reported masked secret
    rcases reported secret with other | ⟨place, here, outside⟩
    · exact other
    · exact absurd (masked place here) outside
  · intro condition secret
    by_cases masked : ∀ place, SecretAt unicode text place → InPlaceholder unicode text place
    · exact .inl (condition masked secret)
    · right
      simpa only [not_forall, exists_prop] using masked

/-- A line with the placeholder of one password, and the other password behind it. -/
def maskedLine : Text :=
  "db_password=<db>;password=hunter2".toList

/-- The second password is not reported. -/
theorem masked_secret_is_not_reported :
    (∃ place, SecretAt Unicode.ascii maskedLine place) ∧
      scanPostimageForSecrets Unicode.ascii [] maskedLine = none := by
  refine ⟨⟨16, _, rfl, ?_⟩, ?_⟩
  · decide
  · rfl

end DataOlympus
