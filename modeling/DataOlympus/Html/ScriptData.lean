import DataOlympus.Text.Case

/-!
# The script data of a page

The tokenizer of an HTML parser inside a script element, with the escaped states that a
comment opens and the double escaped states that a nested script tag opens.  A text without
an end tag cannot end the element; it matters only in which of three modes it leaves the
tokenizer, and this is read off the text by its comment marks and script tags.
-/

namespace DataOlympus.Html

open Lines

/-- White space, a slash or `>` ends the name of a tag. -/
def endsName (c : Char) : Bool :=
  c = '\t' || c = '\n' || c = '\x0c' || c = ' ' || c = '/' || c = '>'

/-- The name of the element, in any case. -/
def isScript (name : Text) : Bool :=
  name.map Char.toLower = "script".toList

/-- The states within a script element.  A buffer holds the letters of a name that is
read. -/
inductive State where
  | scriptData
  | lessThan
  | endTagOpen
  | endTagName (buffer : Text)
  | escapeStart
  | escapeStartDash
  | escaped
  | escapedDash
  | escapedDashDash
  | escapedLessThan
  | escapedEndTagOpen
  | escapedEndTagName (buffer : Text)
  | doubleEscapeStart (buffer : Text)
  | doubleEscaped
  | doubleEscapedDash
  | doubleEscapedDashDash
  | doubleEscapedLessThan
  | doubleEscapeEnd (buffer : Text)
  deriving DecidableEq

namespace State

/-- The script data state. -/
def stepData (c : Char) : State :=
  if c = '<' then lessThan else scriptData

/-- The script data escaped state. -/
def stepEscaped (c : Char) : State :=
  if c = '-' then escapedDash else if c = '<' then escapedLessThan else escaped

/-- The script data double escaped state. -/
def stepDoubleEscaped (c : Char) : State :=
  if c = '-' then doubleEscapedDash else if c = '<' then doubleEscapedLessThan else doubleEscaped

/-- The next state; none where the name of the end tag is complete. -/
def step : State → Char → Option State
  | scriptData, c => some (stepData c)
  | lessThan, c =>
      some (if c = '/' then endTagOpen else if c = '!' then escapeStart else stepData c)
  | endTagOpen, c => some (if c.isAlpha then endTagName [c] else stepData c)
  | endTagName buffer, c =>
      if endsName c && isScript buffer then none
      else if c.isAlpha then some (endTagName (buffer ++ [c]))
      else some (stepData c)
  | escapeStart, c => some (if c = '-' then escapeStartDash else stepData c)
  | escapeStartDash, c => some (if c = '-' then escapedDashDash else stepData c)
  | escaped, c => some (stepEscaped c)
  | escapedDash, c => some (if c = '-' then escapedDashDash else stepEscaped c)
  | escapedDashDash, c =>
      some (if c = '-' then escapedDashDash else if c = '>' then scriptData else stepEscaped c)
  | escapedLessThan, c =>
      some (if c = '/' then escapedEndTagOpen else if c.isAlpha then doubleEscapeStart [c]
        else stepEscaped c)
  | escapedEndTagOpen, c => some (if c.isAlpha then escapedEndTagName [c] else stepEscaped c)
  | escapedEndTagName buffer, c =>
      if endsName c && isScript buffer then none
      else if c.isAlpha then some (escapedEndTagName (buffer ++ [c]))
      else some (stepEscaped c)
  | doubleEscapeStart buffer, c =>
      some (if endsName c then if isScript buffer then doubleEscaped else escaped
        else if c.isAlpha then doubleEscapeStart (buffer ++ [c])
        else stepEscaped c)
  | doubleEscaped, c => some (stepDoubleEscaped c)
  | doubleEscapedDash, c => some (if c = '-' then doubleEscapedDashDash else stepDoubleEscaped c)
  | doubleEscapedDashDash, c =>
      some (if c = '-' then doubleEscapedDashDash else if c = '>' then scriptData
        else stepDoubleEscaped c)
  | doubleEscapedLessThan, c =>
      some (if c = '/' then doubleEscapeEnd [] else stepDoubleEscaped c)
  | doubleEscapeEnd buffer, c =>
      some (if endsName c then if isScript buffer then escaped else doubleEscaped
        else if c.isAlpha then doubleEscapeEnd (buffer ++ [c])
        else stepDoubleEscaped c)

end State

open State

/-- The state behind a text that does not end the element. -/
def runs : State → Text → Option State
  | state, [] => some state
  | state, c :: rest => (state.step c).bind fun next => runs next rest

/-- How many characters stand before the end tag, of which the name is passed when it is
known. -/
def endOf : State → Nat → Text → Option Nat
  | _, _, [] => none
  | state, passed, c :: rest =>
      match state.step c with
      | some next => endOf next (passed + 1) rest
      | none => some (passed - "</script".length)

/-- The content of a script element and what follows it, from its end tag on. -/
def scriptContent (text : Text) : Option (Text × Text) :=
  (endOf scriptData 0 text).map fun place => (text.take place, text.drop place)

example : scriptContent "a </script>b".toList = some ("a ".toList, "</script>b".toList) := by
  decide

example : scriptContent "<!--<script>--></script>".toList =
    some ("<!--<script>-->".toList, "</script>".toList) := by
  decide

/-! ## Modes -/

inductive Mode where
  | plain
  | comment
  | nested
  deriving DecidableEq

/-- The mode of a state. -/
def State.mode : State → Mode
  | scriptData | lessThan | endTagOpen | endTagName _ | escapeStart | escapeStartDash => .plain
  | escaped | escapedDash | escapedDashDash | escapedLessThan | escapedEndTagOpen
  | escapedEndTagName _ | doubleEscapeStart _ => .comment
  | doubleEscaped | doubleEscapedDash | doubleEscapedDashDash | doubleEscapedLessThan
  | doubleEscapeEnd _ => .nested

/-- A text begins with a script tag whose name is ended. -/
def opensScript (text : Text) : Bool :=
  text.head? = some '<' && isScript ((text.drop 1).take 6) && (text[7]?).any endsName

/-- The mode behind a text, by the marks that stand in it. -/
def scan : Mode → Text → Mode
  | mode, [] => mode
  | .plain, c :: rest =>
      if "<!--".toList.isPrefixOf (c :: rest) then scan .comment rest else scan .plain rest
  | .comment, c :: rest =>
      if "-->".toList.isPrefixOf (c :: rest) then scan .plain rest
      else if opensScript (c :: rest) then scan .nested rest
      else scan .comment rest
  | .nested, c :: rest =>
      if "-->".toList.isPrefixOf (c :: rest) then scan .plain rest else scan .nested rest

/-- The last characters of the text that a state remembers. -/
def State.marks : State → Text
  | lessThan | escapedLessThan | doubleEscapedLessThan => ['<']
  | escapeStart => ['<', '!']
  | escapeStartDash => ['<', '!', '-']
  | escapedDash | doubleEscapedDash => ['-']
  | escapedDashDash | doubleEscapedDashDash => ['-', '-']
  | doubleEscapeStart buffer => '<' :: buffer
  | _ => []

/-- A state that no end tag has begun, with letters in its buffer. -/
def State.Calm : State → Prop
  | endTagOpen | endTagName _ | escapedEndTagOpen | escapedEndTagName _ | doubleEscapeEnd _ =>
      False
  | doubleEscapeStart buffer => ∀ c ∈ buffer, c.isAlpha = true
  | _ => True

variable {c : Char} {rest name buffer text : Text} {mode : Mode} {state next : State}

/-! ## Characters without a mark -/

theorem isPrefixOf_comment_of_ne (different : c ≠ '<') :
    "<!--".toList.isPrefixOf (c :: rest) = false := by
  change ((('<' == c) && _) : Bool) = false
  rw [beq_false_of_ne different.symm, Bool.false_and]

theorem isPrefixOf_close_of_ne (different : c ≠ '-') :
    "-->".toList.isPrefixOf (c :: rest) = false := by
  change ((('-' == c) && _) : Bool) = false
  rw [beq_false_of_ne different.symm, Bool.false_and]

theorem opensScript_of_ne (different : c ≠ '<') : opensScript (c :: rest) = false := by
  rw [opensScript, List.head?_cons, decide_eq_false (by simpa using different), Bool.false_and,
    Bool.false_and]

theorem scan_plain_of_ne (different : c ≠ '<') :
    scan .plain (c :: rest) = scan .plain rest := by
  rw [scan, if_neg (by rw [isPrefixOf_comment_of_ne different]; exact Bool.false_ne_true)]

theorem scan_comment_of_not (no_close : "-->".toList.isPrefixOf (c :: rest) = false)
    (no_script : opensScript (c :: rest) = false) :
    scan .comment (c :: rest) = scan .comment rest := by
  rw [scan, if_neg (by rw [no_close]; exact Bool.false_ne_true),
    if_neg (by rw [no_script]; exact Bool.false_ne_true)]

theorem scan_comment_of_ne (no_dash : c ≠ '-') (no_tag : c ≠ '<') :
    scan .comment (c :: rest) = scan .comment rest :=
  scan_comment_of_not (isPrefixOf_close_of_ne no_dash) (opensScript_of_ne no_tag)

theorem scan_nested_of_not (no_close : "-->".toList.isPrefixOf (c :: rest) = false) :
    scan .nested (c :: rest) = scan .nested rest := by
  rw [scan, if_neg (by rw [no_close]; exact Bool.false_ne_true)]

theorem scan_nested_of_ne (no_dash : c ≠ '-') : scan .nested (c :: rest) = scan .nested rest :=
  scan_nested_of_not (isPrefixOf_close_of_ne no_dash)

/-- Letters carry no mark. -/
theorem scan_letters (letters : ∀ c ∈ buffer, c.isAlpha = true) (ordinary : mode ≠ .plain) :
    scan mode (buffer ++ rest) = scan mode rest := by
  induction buffer with
  | nil => rfl
  | cons c buffer ih =>
      obtain ⟨first, further⟩ := List.forall_mem_cons.mp letters
      have no_dash : c ≠ '-' := by
        rintro rfl
        cases first
      have no_tag : c ≠ '<' := by
        rintro rfl
        cases first
      rw [List.cons_append, ← ih further]
      cases mode with
      | plain => exact absurd rfl ordinary
      | comment => exact scan_comment_of_ne no_dash no_tag
      | nested => exact scan_nested_of_ne no_dash

/-! ## The name of a script tag -/

theorem isAlpha_of_isScript (script : isScript name = true) :
    name.length = 6 ∧ ∀ c ∈ name, c.isAlpha = true := by
  have lowered : name.map Char.toLower = "script".toList := of_decide_eq_true script
  constructor
  · have lengths := congrArg List.length lowered
    rwa [List.length_map] at lengths
  · intro c member
    have among : c.toLower ∈ "script".toList := by
      rw [← lowered]
      exact List.mem_map_of_mem member
    obtain ⟨same, _⟩ | ⟨range, _⟩ := toLower_cases c
    · rw [same] at among
      have letters : ("script".toList.all Char.isAlpha) = true := by decide
      exact List.all_eq_true.mp letters c among
    · have upper : c.isUpper = true := decide_eq_true range
      exact Bool.or_eq_true_iff.mpr (.inl upper)

theorem endsName_of_isAlpha (letter : c.isAlpha = true) : endsName c = false := by
  rw [← Bool.not_eq_true]
  intro ends
  simp only [endsName, Bool.or_eq_true, decide_eq_true_eq, or_assoc] at ends
  rcases ends with rfl | rfl | rfl | rfl | rfl | rfl
  all_goals cases letter

theorem ne_of_endsName (ends : endsName c = true) : c ≠ '-' ∧ c ≠ '<' := by
  constructor
  · rintro rfl
    cases ends
  · rintro rfl
    cases ends

/-- A tag opens when its letters are the name and the next character ends it. -/
theorem opensScript_letters (letters : ∀ c ∈ buffer, c.isAlpha = true)
    (no_letter : c.isAlpha = false) :
    opensScript ('<' :: (buffer ++ c :: rest)) = (isScript buffer && endsName c) := by
  have of_length : buffer.length ≠ 6 → isScript buffer = false := by
    intro different
    rw [← Bool.not_eq_true]
    exact fun script => different (isAlpha_of_isScript script).1
  change (true && isScript ((buffer ++ c :: rest).take 6) &&
    ((buffer ++ c :: rest)[6]?).any endsName) = _
  rw [Bool.true_and]
  obtain short | six | long := Nat.lt_trichotomy buffer.length 6
  · have no_name : isScript ((buffer ++ c :: rest).take 6) = false := by
      rw [← Bool.not_eq_true]
      intro script
      have among : c ∈ (buffer ++ c :: rest).take 6 := by
        obtain ⟨more, six⟩ := Nat.exists_eq_add_of_lt short
        have count : 6 - buffer.length = more + 1 := by omega
        rw [List.take_append, count, List.take_succ_cons]
        exact List.mem_append_right _ List.mem_cons_self
      rw [(isAlpha_of_isScript script).2 c among] at no_letter
      cases no_letter
    rw [no_name, of_length (Nat.ne_of_lt short), Bool.false_and, Bool.false_and]
  · have whole : (buffer ++ c :: rest).take 6 = buffer := List.take_left' six
    have seventh : (buffer ++ c :: rest)[6]? = some c := by
      rw [List.getElem?_append_right (Nat.le_of_eq six), six]
      rfl
    rw [whole, seventh, Option.any_some]
  · have seventh : ((buffer ++ c :: rest)[6]?).any endsName = false := by
      rw [List.getElem?_append_left long, List.getElem?_eq_getElem long, Option.any_some]
      exact endsName_of_isAlpha (letters _ (List.getElem_mem long))
    rw [seventh, of_length (Nat.ne_of_gt long), Bool.and_false, Bool.false_and]

/-! ## One step -/

theorem scan_stepData (c : Char) (rest : Text) :
    scan .plain (c :: rest) = scan (stepData c).mode ((stepData c).marks ++ rest) ∧
      (stepData c).Calm := by
  unfold stepData
  split
  · rename_i same
    subst c
    exact ⟨rfl, trivial⟩
  · rename_i different
    exact ⟨scan_plain_of_ne different, trivial⟩

theorem scan_stepEscaped (c : Char) (rest : Text) :
    scan .comment (c :: rest) = scan (stepEscaped c).mode ((stepEscaped c).marks ++ rest) ∧
      (stepEscaped c).Calm := by
  unfold stepEscaped
  split
  · rename_i same
    subst c
    exact ⟨rfl, trivial⟩
  · rename_i no_dash
    split
    · rename_i same
      subst c
      exact ⟨rfl, trivial⟩
    · rename_i no_tag
      exact ⟨scan_comment_of_ne no_dash no_tag, trivial⟩

theorem scan_stepDoubleEscaped (c : Char) (rest : Text) :
    scan .nested (c :: rest) =
        scan (stepDoubleEscaped c).mode ((stepDoubleEscaped c).marks ++ rest) ∧
      (stepDoubleEscaped c).Calm := by
  unfold stepDoubleEscaped
  split
  · rename_i same
    subst c
    exact ⟨rfl, trivial⟩
  · rename_i no_dash
    split
    · rename_i same
      subst c
      exact ⟨rfl, trivial⟩
    · exact ⟨scan_nested_of_ne no_dash, trivial⟩

theorem scan_tag_of_ne (no_bang : c ≠ '!') :
    scan .plain ('<' :: c :: rest) = scan .plain (c :: rest) := by
  have no_comment : "<!--".toList.isPrefixOf ('<' :: c :: rest) = false := by
    change ((('!' == c) && _) : Bool) = false
    rw [beq_false_of_ne no_bang.symm, Bool.false_and]
  rw [scan, if_neg (by rw [no_comment]; exact Bool.false_ne_true)]

theorem scan_bang_of_ne (no_dash : c ≠ '-') :
    scan .plain ('<' :: '!' :: c :: rest) = scan .plain (c :: rest) := by
  have no_comment : "<!--".toList.isPrefixOf ('<' :: '!' :: c :: rest) = false := by
    change ((('-' == c) && _) : Bool) = false
    rw [beq_false_of_ne no_dash.symm, Bool.false_and]
  rw [scan, if_neg (by rw [no_comment]; exact Bool.false_ne_true), scan_plain_of_ne (by decide)]

theorem scan_bang_dash_of_ne (no_dash : c ≠ '-') :
    scan .plain ('<' :: '!' :: '-' :: c :: rest) = scan .plain (c :: rest) := by
  have no_comment : "<!--".toList.isPrefixOf ('<' :: '!' :: '-' :: c :: rest) = false := by
    change ((('-' == c) && _) : Bool) = false
    rw [beq_false_of_ne no_dash.symm, Bool.false_and]
  rw [scan, if_neg (by rw [no_comment]; exact Bool.false_ne_true), scan_plain_of_ne (by decide),
    scan_plain_of_ne (by decide)]

theorem isPrefixOf_dash_of_ne (no_dash : c ≠ '-') :
    "-->".toList.isPrefixOf ('-' :: c :: rest) = false := by
  change ((('-' == c) && _) : Bool) = false
  rw [beq_false_of_ne no_dash.symm, Bool.false_and]

theorem isPrefixOf_dashes_of_ne (no_close : c ≠ '>') :
    "-->".toList.isPrefixOf ('-' :: '-' :: c :: rest) = false := by
  change ((('>' == c) && _) : Bool) = false
  rw [beq_false_of_ne no_close.symm, Bool.false_and]

theorem scan_close (mode : Mode) : scan mode ('-' :: '-' :: '>' :: rest) = scan .plain rest := by
  have closes : "-->".toList.isPrefixOf ('-' :: '-' :: '>' :: rest) = true := rfl
  cases mode with
  | plain =>
      rw [scan_plain_of_ne (by decide), scan_plain_of_ne (by decide), scan_plain_of_ne (by decide)]
  | comment =>
      rw [scan, if_pos closes, scan_plain_of_ne (by decide), scan_plain_of_ne (by decide)]
  | nested =>
      rw [scan, if_pos closes, scan_plain_of_ne (by decide), scan_plain_of_ne (by decide)]

theorem scan_comment_letters (letters : ∀ c ∈ buffer, c.isAlpha = true)
    (no_letter : c.isAlpha = false) :
    scan .comment ('<' :: (buffer ++ c :: rest)) =
      scan (if isScript buffer && endsName c then .nested else .comment) (c :: rest) := by
  rw [scan, if_neg (by rw [isPrefixOf_close_of_ne (by decide)]; exact Bool.false_ne_true),
    opensScript_letters letters no_letter]
  split
  · exact scan_letters letters (by decide)
  · exact scan_letters letters (by decide)

/-- A step of the tokenizer leaves the scan where it is. -/
theorem scan_step (calm : state.Calm) (no_end : state.marks = ['<'] → c ≠ '/')
    (stepped : state.step c = some next) :
    scan state.mode (state.marks ++ c :: rest) = scan next.mode (next.marks ++ rest) ∧
      next.Calm := by
  cases state with
  | scriptData =>
      cases stepped
      exact scan_stepData c rest
  | lessThan =>
      rw [step, if_neg (no_end rfl)] at stepped
      cases stepped
      split
      · rename_i bang
        subst c
        exact ⟨rfl, trivial⟩
      · rename_i no_bang
        change scan .plain ('<' :: c :: rest) = _ ∧ _
        rw [scan_tag_of_ne no_bang]
        exact scan_stepData c rest
  | endTagOpen => exact calm.elim
  | endTagName buffer => exact calm.elim
  | escapeStart =>
      cases stepped
      split
      · rename_i dash
        subst c
        exact ⟨rfl, trivial⟩
      · rename_i no_dash
        change scan .plain ('<' :: '!' :: c :: rest) = _ ∧ _
        rw [scan_bang_of_ne no_dash]
        exact scan_stepData c rest
  | escapeStartDash =>
      cases stepped
      split
      · rename_i dash
        subst c
        refine ⟨?_, trivial⟩
        have opens : "<!--".toList.isPrefixOf ('<' :: '!' :: '-' :: '-' :: rest) = true := rfl
        change scan .plain ('<' :: '!' :: '-' :: '-' :: rest) = scan .comment ('-' :: '-' :: rest)
        rw [scan, if_pos opens, scan_comment_of_ne (by decide) (by decide)]
      · rename_i no_dash
        change scan .plain ('<' :: '!' :: '-' :: c :: rest) = _ ∧ _
        rw [scan_bang_dash_of_ne no_dash]
        exact scan_stepData c rest
  | escaped =>
      cases stepped
      exact scan_stepEscaped c rest
  | escapedDash =>
      cases stepped
      split
      · rename_i dash
        subst c
        exact ⟨rfl, trivial⟩
      · rename_i no_dash
        change scan .comment ('-' :: c :: rest) = _ ∧ _
        rw [scan_comment_of_not (isPrefixOf_dash_of_ne no_dash) (opensScript_of_ne (by decide))]
        exact scan_stepEscaped c rest
  | escapedDashDash =>
      cases stepped
      split
      · rename_i dash
        subst c
        refine ⟨?_, trivial⟩
        change scan .comment ('-' :: '-' :: '-' :: rest) = scan .comment ('-' :: '-' :: rest)
        exact scan_comment_of_not (isPrefixOf_dashes_of_ne (by decide))
          (opensScript_of_ne (by decide))
      · rename_i no_dash
        split
        · rename_i close
          subst c
          exact ⟨scan_close .comment, trivial⟩
        · rename_i no_close
          change scan .comment ('-' :: '-' :: c :: rest) = _ ∧ _
          rw [scan_comment_of_not (isPrefixOf_dashes_of_ne no_close)
            (opensScript_of_ne (by decide)), scan_comment_of_not (isPrefixOf_dash_of_ne no_dash)
            (opensScript_of_ne (by decide))]
          exact scan_stepEscaped c rest
  | escapedLessThan =>
      rw [step, if_neg (no_end rfl)] at stepped
      cases stepped
      split
      · rename_i letter
        refine ⟨rfl, ?_⟩
        intro d member
        rwa [List.mem_singleton.mp member]
      · rename_i no_letter
        rw [Bool.not_eq_true] at no_letter
        have skipped : scan .comment ('<' :: ([] ++ c :: rest)) =
            scan (if isScript [] && endsName c then .nested else .comment) (c :: rest) :=
          scan_comment_letters (List.forall_mem_nil _) no_letter
        change scan .comment ('<' :: ([] ++ c :: rest)) = _ ∧ _
        rw [skipped]
        exact scan_stepEscaped c rest
  | escapedEndTagOpen => exact calm.elim
  | escapedEndTagName buffer => exact calm.elim
  | doubleEscapeStart buffer =>
      cases stepped
      by_cases letter : c.isAlpha = true
      · rw [endsName_of_isAlpha letter, if_neg Bool.false_ne_true, if_pos letter]
        constructor
        · change scan .comment ('<' :: (buffer ++ c :: rest)) =
            scan .comment ('<' :: ((buffer ++ [c]) ++ rest))
          rw [List.append_assoc]
          rfl
        · intro d member
          rcases List.mem_append.mp member with before | last
          · exact calm d before
          · rwa [List.mem_singleton.mp last]
      · rw [Bool.not_eq_true] at letter
        change scan .comment ('<' :: (buffer ++ c :: rest)) = _ ∧ _
        rw [scan_comment_letters calm letter]
        cases ends : endsName c with
        | true =>
            obtain ⟨no_dash, no_tag⟩ := ne_of_endsName ends
            rw [if_pos rfl, Bool.and_true]
            cases isScript buffer with
            | true => exact ⟨scan_nested_of_ne no_dash, trivial⟩
            | false => exact ⟨scan_comment_of_ne no_dash no_tag, trivial⟩
        | false =>
            rw [Bool.and_false, if_neg Bool.false_ne_true, if_neg Bool.false_ne_true, letter,
              if_neg Bool.false_ne_true]
            exact scan_stepEscaped c rest
  | doubleEscaped =>
      cases stepped
      exact scan_stepDoubleEscaped c rest
  | doubleEscapedDash =>
      cases stepped
      split
      · rename_i dash
        subst c
        exact ⟨rfl, trivial⟩
      · rename_i no_dash
        change scan .nested ('-' :: c :: rest) = _ ∧ _
        rw [scan_nested_of_not (isPrefixOf_dash_of_ne no_dash)]
        exact scan_stepDoubleEscaped c rest
  | doubleEscapedDashDash =>
      cases stepped
      split
      · rename_i dash
        subst c
        refine ⟨?_, trivial⟩
        change scan .nested ('-' :: '-' :: '-' :: rest) = scan .nested ('-' :: '-' :: rest)
        exact scan_nested_of_not (isPrefixOf_dashes_of_ne (by decide))
      · rename_i no_dash
        split
        · rename_i close
          subst c
          exact ⟨scan_close .nested, trivial⟩
        · rename_i no_close
          change scan .nested ('-' :: '-' :: c :: rest) = _ ∧ _
          rw [scan_nested_of_not (isPrefixOf_dashes_of_ne no_close),
            scan_nested_of_not (isPrefixOf_dash_of_ne no_dash)]
          exact scan_stepDoubleEscaped c rest
  | doubleEscapedLessThan =>
      rw [step, if_neg (no_end rfl)] at stepped
      cases stepped
      change scan .nested ('<' :: c :: rest) = _ ∧ _
      rw [scan_nested_of_ne (by decide)]
      exact scan_stepDoubleEscaped c rest
  | doubleEscapeEnd buffer => exact calm.elim

/-! ## A run -/

/-- A text without `</`. -/
def NoClose (text : Text) : Prop :=
  ¬['<', '/'] <:+: text

theorem noClose_of_cons (no_close : NoClose (c :: rest)) : NoClose rest := by
  intro inside
  exact no_close (inside.trans (List.suffix_cons c rest).isInfix)

theorem exists_step (calm : state.Calm) (c : Char) : ∃ next, state.step c = some next := by
  cases state with
  | endTagOpen => exact calm.elim
  | endTagName buffer => exact calm.elim
  | escapedEndTagOpen => exact calm.elim
  | escapedEndTagName buffer => exact calm.elim
  | doubleEscapeEnd buffer => exact calm.elim
  | _ => exact ⟨_, rfl⟩

/-- The tokenizer waits behind `<` only when it has just read it. -/
theorem eq_of_marks (calm : state.Calm) (stepped : state.step c = some next)
    (waits : next.marks = ['<']) : c = '<' := by
  by_contra different
  have data : (stepData c).marks ≠ ['<'] := by
    rw [stepData, if_neg different]
    exact List.cons_ne_nil _ _ |>.symm
  have escaped : (stepEscaped c).marks ≠ ['<'] := by
    unfold stepEscaped
    split
    · decide
    · decide
  have doubleEscaped : (stepDoubleEscaped c).marks ≠ ['<'] := by
    unfold stepDoubleEscaped
    split
    · decide
    · decide
  cases state with
  | endTagOpen => exact calm
  | endTagName buffer => exact calm
  | escapedEndTagOpen => exact calm
  | escapedEndTagName buffer => exact calm
  | doubleEscapeEnd buffer => exact calm
  | scriptData => exact data (by cases stepped; exact waits)
  | escaped => exact escaped (by cases stepped; exact waits)
  | doubleEscaped => exact doubleEscaped (by cases stepped; exact waits)
  | doubleEscapeStart buffer =>
      cases stepped
      split_ifs at waits
      · cases waits
      · cases waits
      · obtain ⟨_, nothing⟩ := List.cons.inj waits
        exact List.append_ne_nil_of_right_ne_nil _ (List.cons_ne_nil c []) nothing
      · exact escaped waits
  | _ =>
      cases stepped
      split_ifs at waits
      all_goals
        first
        | exact data waits
        | exact escaped waits
        | exact doubleEscaped waits
        | cases waits

theorem scan_marks (calm : state.Calm) : scan state.mode state.marks = state.mode := by
  cases state with
  | doubleEscapeStart buffer =>
      have no_script : opensScript ('<' :: buffer) = false := by
        have no_end : (buffer[6]?).any endsName = false := by
          cases found : buffer[6]? with
          | none => rfl
          | some c => exact endsName_of_isAlpha (calm c (List.mem_of_getElem? found))
        change (_ && (buffer[6]?).any endsName) = false
        rw [no_end, Bool.and_false]
      change scan .comment ('<' :: buffer) = .comment
      rw [scan_comment_of_not (isPrefixOf_close_of_ne (by decide)) no_script,
        ← List.append_nil buffer, scan_letters calm (by decide)]
      rfl
  | _ => rfl

/-- Nothing ends the element in a text without `</`, and the scan gives the mode behind it. -/
theorem exists_runs {text : Text} (calm : state.Calm) (no_close : NoClose text)
    (apart : state.marks = ['<'] → text.head? ≠ some '/') :
    ∃ last, runs state text = some last ∧ last.Calm ∧
      last.mode = scan state.mode (state.marks ++ text) := by
  induction text generalizing state with
  | nil =>
      refine ⟨state, rfl, calm, ?_⟩
      rw [List.append_nil, scan_marks calm]
  | cons c rest ih =>
      obtain ⟨next, stepped⟩ := exists_step calm c
      have no_end : state.marks = ['<'] → c ≠ '/' := by
        intro waits slash
        exact apart waits (congrArg some slash)
      obtain ⟨same, still⟩ := @scan_step c rest state next calm no_end stepped
      have further : next.marks = ['<'] → rest.head? ≠ some '/' := by
        intro waits slash
        obtain rfl := eq_of_marks calm stepped waits
        obtain ⟨more, rfl⟩ := List.head?_eq_some_iff.mp slash
        exact no_close ⟨[], more, rfl⟩
      obtain ⟨last, run, settled, mode⟩ := ih still (noClose_of_cons no_close) further
      refine ⟨last, ?_, settled, by rw [mode, same]⟩
      rw [runs, stepped, Option.bind_some, run]

/-! ## Traps -/

def Closes (text : Text) : Prop :=
  "-->".toList <:+: text

/-- A script tag stands in the text. -/
def HasScript (text : Text) : Prop :=
  ∃ before tag, text = before ++ tag ∧ opensScript tag = true

/-- A comment mark begins the text, a script tag follows, and nothing closes the comment. -/
def Opening (text : Text) : Prop :=
  ∃ behind, text = '<' :: '!' :: '-' :: '-' :: behind ∧ ¬Closes ('-' :: '-' :: behind) ∧
    HasScript behind

/-- Behind a comment mark stands a script tag, and no `-->` behind the mark, its own dashes
included. -/
def Traps (text : Text) : Prop :=
  ∃ before opening, text = before ++ opening ∧ Opening opening

theorem closes_cons_iff :
    Closes (c :: rest) ↔ "-->".toList.isPrefixOf (c :: rest) = true ∨ Closes rest := by
  unfold Closes
  rw [List.infix_cons_iff, List.isPrefixOf_iff_prefix]

theorem exists_suffix_cons_iff {p : Text → Prop} :
    (∃ before suffix, c :: rest = before ++ suffix ∧ p suffix) ↔
      p (c :: rest) ∨ (∃ before suffix, rest = before ++ suffix ∧ p suffix) := by
  constructor
  · rintro ⟨before, suffix, same, holds⟩
    cases before with
    | nil =>
        rw [List.nil_append] at same
        exact .inl (same ▸ holds)
    | cons d before =>
        obtain ⟨_, rfl⟩ := List.cons.inj same
        exact .inr ⟨before, suffix, rfl, holds⟩
  · rintro (holds | ⟨before, suffix, rfl, holds⟩)
    · exact ⟨[], c :: rest, rfl, holds⟩
    · exact ⟨c :: before, suffix, rfl, holds⟩

theorem hasScript_cons_iff :
    HasScript (c :: rest) ↔ opensScript (c :: rest) = true ∨ HasScript rest :=
  exists_suffix_cons_iff

theorem traps_cons_iff : Traps (c :: rest) ↔ Opening (c :: rest) ∨ Traps rest :=
  exists_suffix_cons_iff

/-- A comment mark leads into what a comment holds. -/
theorem opening_iff (marked : "<!--".toList.isPrefixOf (c :: rest) = true) :
    Opening (c :: rest) ↔ ¬Closes rest ∧ HasScript rest := by
  obtain ⟨behind, written⟩ := List.isPrefixOf_iff_prefix.mp marked
  obtain ⟨rfl, rfl⟩ := List.cons.inj written
  have closes : Closes ('!' :: '-' :: '-' :: behind) ↔ Closes ('-' :: '-' :: behind) := by
    rw [closes_cons_iff, isPrefixOf_close_of_ne (by decide)]
    exact or_iff_right Bool.false_ne_true
  have script : HasScript ('!' :: '-' :: '-' :: behind) ↔ HasScript behind := by
    rw [hasScript_cons_iff, hasScript_cons_iff, hasScript_cons_iff, opensScript_of_ne (by decide),
      opensScript_of_ne (by decide), opensScript_of_ne (by decide)]
    simp
  change Opening ('<' :: '!' :: '-' :: '-' :: behind) ↔
    ¬Closes ('!' :: '-' :: '-' :: behind) ∧ HasScript ('!' :: '-' :: '-' :: behind)
  rw [closes, script]
  constructor
  · rintro ⟨other, same, holds⟩
    cases same
    exact holds
  · intro holds
    exact ⟨behind, rfl, holds⟩

theorem not_opening (unmarked : "<!--".toList.isPrefixOf (c :: rest) = false) :
    ¬Opening (c :: rest) := by
  rintro ⟨behind, same, _⟩
  rw [same] at unmarked
  cases unmarked

theorem not_opening_of_close (close : "-->".toList.isPrefixOf (c :: rest) = true) :
    ¬Opening (c :: rest) := by
  rintro ⟨behind, same, _⟩
  rw [same] at close
  cases close

theorem not_opening_of_script (script : opensScript (c :: rest) = true) :
    ¬Opening (c :: rest) := by
  rintro ⟨behind, same, _⟩
  rw [same] at script
  have unnamed : isScript (('!' :: '-' :: '-' :: behind).take 6) = false := by
    rw [← Bool.not_eq_true]
    intro named
    cases (isAlpha_of_isScript named).2 '!' List.mem_cons_self
  change (true && isScript (('!' :: '-' :: '-' :: behind).take 6) && _) = true at script
  rw [unnamed] at script
  cases script

/-- What the scan of each mode ends in. -/
theorem scan_eq_nested_iff (text : Text) :
    (scan .plain text = .nested ↔ Traps text) ∧
      (scan .comment text = .nested ↔ ¬Closes text ∧ HasScript text ∨ Traps text) ∧
      (scan .nested text = .nested ↔ ¬Closes text ∨ Traps text) := by
  induction text with
  | nil =>
      have no_trap : ¬Traps [] := by
        rintro ⟨before, opening, same, behind, rfl, _⟩
        cases (List.append_eq_nil_iff.mp same.symm).2
      have no_script : ¬HasScript [] := by
        rintro ⟨before, tag, same, script⟩
        obtain ⟨_, rfl⟩ := List.append_eq_nil_iff.mp same.symm
        cases script
      have no_close : ¬Closes [] := by
        intro inside
        cases List.infix_nil.mp inside
      refine ⟨iff_of_false (by decide) no_trap, iff_of_false (by decide) ?_, iff_of_true rfl
        (.inl no_close)⟩
      rintro (⟨_, script⟩ | trap)
      · exact no_script script
      · exact no_trap trap
  | cons c rest ih =>
      obtain ⟨plain, comment, nested⟩ := ih
      rw [traps_cons_iff, closes_cons_iff, hasScript_cons_iff]
      have opening_rest : Opening (c :: rest) → ¬Closes rest ∧ HasScript rest := by
        cases marked : "<!--".toList.isPrefixOf (c :: rest) with
        | true => exact (opening_iff marked).mp
        | false => exact fun opening => (not_opening marked opening).elim
      refine ⟨?_, ?_, ?_⟩
      · rw [scan]
        cases marked : "<!--".toList.isPrefixOf (c :: rest) with
        | true => rw [if_pos rfl, comment, opening_iff marked]
        | false => rw [if_neg Bool.false_ne_true, plain, or_iff_right (not_opening marked)]
      · rw [scan]
        cases close : "-->".toList.isPrefixOf (c :: rest) with
        | true =>
            have unopened := not_opening_of_close close
            rw [if_pos rfl, plain]
            grind
        | false =>
            rw [if_neg Bool.false_ne_true]
            cases script : opensScript (c :: rest) with
            | true =>
                have unopened := not_opening_of_script script
                rw [if_pos rfl, nested]
                grind
            | false =>
                rw [if_neg Bool.false_ne_true, comment]
                simp only [Bool.false_eq_true, false_or]
                grind
      · rw [scan]
        cases close : "-->".toList.isPrefixOf (c :: rest) with
        | true =>
            have unopened := not_opening_of_close close
            rw [if_pos rfl, plain]
            grind
        | false =>
            rw [if_neg Bool.false_ne_true, nested]
            simp only [Bool.false_eq_true, false_or]
            grind

/-! ## The end of the element -/

theorem endOf_append {text : Text} {last : State} (run : runs state text = some last)
    (passed : Nat) (rest : Text) :
    endOf state passed (text ++ rest) = endOf last (passed + text.length) rest := by
  induction text generalizing state passed with
  | nil =>
      cases run
      rfl
  | cons c text ih =>
      rw [runs] at run
      obtain ⟨next, stepped, run⟩ := Option.bind_eq_some_iff.mp run
      rw [List.cons_append, endOf, stepped]
      dsimp only
      rw [ih run, List.length_cons, Nat.add_assoc, Nat.add_comm 1]

/-- The end tag that is found ends behind what was passed. -/
theorem le_endOf {passed place : Nat} {text : Text} (found : endOf state passed text = some place) :
    passed - "</script".length ≤ place := by
  induction text generalizing state passed with
  | nil => cases found
  | cons c text ih =>
      rw [endOf] at found
      split at found
      · have further := ih found
        omega
      · cases found
        exact le_rfl

/-- The state behind a `<`. -/
def Mode.tagState : Mode → State
  | .plain => lessThan
  | .comment => escapedLessThan
  | .nested => doubleEscapedLessThan

theorem step_tag (calm : state.Calm) : state.step '<' = some state.mode.tagState := by
  cases state with
  | endTagOpen => exact calm.elim
  | endTagName buffer => exact calm.elim
  | escapedEndTagOpen => exact calm.elim
  | escapedEndTagName buffer => exact calm.elim
  | doubleEscapeEnd buffer => exact calm.elim
  | _ => rfl

/-- The end tag ends the element outside of a nested script. -/
theorem endOf_endTag (calm : state.Calm) (passed : Nat) (rest : Text) :
    endOf state passed ("</script>".toList ++ rest) =
      if state.mode = .nested then endOf escaped (passed + 9) rest else some passed := by
  have opened : endOf state passed ("</script>".toList ++ rest) =
      endOf state.mode.tagState (passed + 1) ("/script>".toList ++ rest) := by
    change endOf state passed ('<' :: ("/script>".toList ++ rest)) = _
    rw [endOf, step_tag calm]
  rw [opened]
  cases state.mode with
  | plain => rfl
  | comment => rfl
  | nested => rfl

/-- An element with a content that has no `</` ends at its end tag unless the content is a
trap. -/
theorem scriptContent_eq_iff {content : Text} (no_close : NoClose content) (rest : Text) :
    scriptContent (content ++ ("</script>".toList ++ rest)) =
        some (content, "</script>".toList ++ rest) ↔ ¬Traps content := by
  have waits : scriptData.marks = ['<'] → content.head? ≠ some '/' := by
    intro impossible
    cases impossible
  obtain ⟨last, run, calm, mode⟩ :=
    @exists_runs scriptData content trivial no_close waits
  have trapped : last.mode = .nested ↔ Traps content := by
    rw [mode]
    exact (scan_eq_nested_iff content).1
  rw [scriptContent, endOf_append run, endOf_endTag calm, Nat.zero_add, ← trapped]
  split
  · rename_i nested
    apply iff_of_false _ (not_not_intro nested)
    intro ended
    obtain ⟨place, found, same⟩ := Option.map_eq_some_iff.mp ended
    have beyond : content.length + 9 - 8 ≤ place := le_endOf found
    have length := congrArg (fun pair => pair.1.length) same
    have long : (content ++ ("</script>".toList ++ rest)).length =
        content.length + (9 + rest.length) := by
      rw [List.length_append, List.length_append]
      rfl
    dsimp only at length
    rw [List.length_take, long] at length
    omega
  · rename_i ordinary
    apply iff_of_true _ ordinary
    rw [Option.map_some, List.take_left, List.drop_left]

end DataOlympus.Html
