import DataOlympus.Html.Literal
import DataOlympus.Html.ScriptData
import DataOlympus.Text.Marks

/-!
# A literal inside of a script element

Every `</` of the literal is written as `<\/`, which is the same literal, leaves no end tag and
sets or takes away no mark of the tokenizer.
-/

namespace DataOlympus.Html

open Lines

/-- `text.replace("</", "<\\/")`. -/
def escapeClose : Text → Text
  | [] => []
  | c :: rest =>
      if c = '<' ∧ rest.head? = some '/' then c :: '\\' :: escapeClose rest
      else c :: escapeClose rest

example : escapeClose "a</b>".toList = "a<\\/b>".toList := by decide

variable {c : Char} {before rest text : Text} {mode : Mode}

theorem escapeClose_of_ne (different : c ≠ '<') (rest : Text) :
    escapeClose (c :: rest) = c :: escapeClose rest := by
  rw [escapeClose, if_neg fun both => different both.1]

theorem head?_escapeClose (text : Text) : (escapeClose text).head? = text.head? := by
  cases text with
  | nil => rfl
  | cons c rest =>
      rw [escapeClose]
      split
      · rfl
      · rfl

theorem length_le_escapeClose (text : Text) : text.length ≤ (escapeClose text).length := by
  induction text with
  | nil => exact le_rfl
  | cons c rest ih =>
      rw [escapeClose]
      split
      · simp only [List.length_cons]
        omega
      · simp only [List.length_cons]
        omega

/-- Texts are escaped apart where no slash begins the second one. -/
theorem escapeClose_append {more : Text} (no_slash : more.head? ≠ some '/') (text : Text) :
    escapeClose (text ++ more) = escapeClose text ++ escapeClose more := by
  induction text with
  | nil => rfl
  | cons c rest ih =>
      have same : (rest ++ more).head? = some '/' ↔ rest.head? = some '/' := by
        cases rest with
        | nil => exact iff_of_false no_slash (Option.some_ne_none _).symm
        | cons d rest => rfl
      rw [List.cons_append, escapeClose, escapeClose, ih]
      simp only [same]
      split
      · rfl
      · rfl

/-- No end tag is left. -/
theorem noClose_escapeClose (text : Text) : NoClose (escapeClose text) := by
  have begins : ∀ {c : Char} {rest : Text}, NoClose rest → ¬(c = '<' ∧ rest.head? = some '/') →
      NoClose (c :: rest) := by
    intro c rest no_close apart inside
    rcases List.infix_cons_iff.mp inside with ⟨more, same⟩ | inside
    · obtain ⟨rfl, rfl⟩ := List.cons.inj same
      exact apart ⟨rfl, rfl⟩
    · exact no_close inside
  induction text with
  | nil =>
      intro inside
      cases List.infix_nil.mp inside
  | cons c rest ih =>
      rw [escapeClose]
      split
      · apply begins
        · apply begins ih
          rintro ⟨same, _⟩
          cases same
        · rintro ⟨_, same⟩
          cases same
      · rename_i apart
        apply begins ih
        rwa [head?_escapeClose]

/-! ## The marks of the tokenizer -/

/-- A character that stands in no mark behind its first place. -/
def splits (c : Char) : Bool :=
  c ≠ '!' && c ≠ '-' && !c.isAlpha && !endsName c

theorem opensScript_append (no_letter : c.isAlpha = false) (no_end : endsName c = false)
    (d : Char) (before rest : Text) :
    opensScript (d :: before ++ c :: rest) = opensScript (d :: before) := by
  have no_script : ∀ {name : Text}, c ∈ name → isScript name = false := by
    intro name among
    rw [← Bool.not_eq_true]
    intro script
    rw [(isAlpha_of_isScript script).2 c among] at no_letter
    cases no_letter
  change (_ && isScript ((before ++ c :: rest).take 6) &&
    ((before ++ c :: rest)[6]?).any endsName) = (_ && isScript (before.take 6) &&
      (before[6]?).any endsName)
  obtain short | six | long := Nat.lt_trichotomy before.length 6
  · have among : c ∈ (before ++ c :: rest).take 6 := by
      obtain ⟨more, six⟩ := Nat.exists_eq_add_of_lt short
      have count : 6 - before.length = more + 1 := by omega
      rw [List.take_append, count, List.take_succ_cons]
      exact List.mem_append_right _ List.mem_cons_self
    rw [no_script among, List.getElem?_eq_none (Nat.le_of_lt short)]
    simp
  · have seventh : (before ++ c :: rest)[6]? = some c := by
      rw [List.getElem?_append_right (Nat.le_of_eq six), six]
      rfl
    rw [seventh, List.getElem?_eq_none (Nat.le_of_eq six), Option.any_some, no_end]
    simp
  · rw [List.take_append_of_le_length (Nat.le_of_lt long), List.getElem?_append_left long]
    rfl

/-- No mark reaches over such a character. -/
theorem scan_append (apart : splits c = true) (mode : Mode) (before rest : Text) :
    scan mode (before ++ c :: rest) = scan (scan mode before) (c :: rest) := by
  simp only [splits, Bool.and_eq_true, decide_eq_true_eq, Bool.not_eq_true'] at apart
  obtain ⟨⟨⟨no_mark, no_dash⟩, no_letter⟩, no_end⟩ := apart
  have no_close : c ≠ '>' := by
    rintro rfl
    cases no_end
  induction before generalizing mode with
  | nil => cases mode <;> rfl
  | cons d before ih =>
      have comment : "<!--".toList.isPrefixOf (d :: (before ++ c :: rest)) =
          "<!--".toList.isPrefixOf (d :: before) := by
        change ('<' == d && "!--".toList.isPrefixOf (before ++ c :: rest)) =
          ('<' == d && "!--".toList.isPrefixOf before)
        rw [isPrefixOf_append_of_not_mem (by simp [no_mark, no_dash])]
      have close : "-->".toList.isPrefixOf (d :: (before ++ c :: rest)) =
          "-->".toList.isPrefixOf (d :: before) := by
        change ('-' == d && "->".toList.isPrefixOf (before ++ c :: rest)) =
          ('-' == d && "->".toList.isPrefixOf before)
        rw [isPrefixOf_append_of_not_mem (by simp [no_dash, no_close])]
      have script : opensScript (d :: (before ++ c :: rest)) = opensScript (d :: before) :=
        opensScript_append no_letter no_end d before rest
      rw [List.cons_append]
      cases mode with
      | plain =>
          rw [scan, scan, comment]
          split
          · exact ih _
          · exact ih _
      | comment =>
          rw [scan, scan, close, script]
          split_ifs
          · exact ih _
          · exact ih _
          · exact ih _
      | nested =>
          rw [scan, scan, close]
          split
          · exact ih _
          · exact ih _

/-- A character that begins no mark. -/
theorem scan_cons_of_ne (no_tag : c ≠ '<') (no_dash : c ≠ '-') (mode : Mode) (rest : Text) :
    scan mode (c :: rest) = scan mode rest := by
  cases mode with
  | plain => exact scan_plain_of_ne no_tag
  | comment => exact scan_comment_of_ne no_dash no_tag
  | nested => exact scan_nested_of_ne no_dash

theorem scan_slash (mode : Mode) (rest : Text) :
    scan mode ('<' :: '/' :: rest) = scan mode ('/' :: rest) := by
  cases mode with
  | plain => rfl
  | comment =>
      have no_script : opensScript ('<' :: '/' :: rest) = false :=
        opensScript_letters (List.forall_mem_nil _) rfl
      exact scan_comment_of_not (isPrefixOf_close_of_ne (by decide)) no_script
  | nested => rfl

/-- The escape changes no mark. -/
theorem scan_escapeClose (mode : Mode) (text : Text) :
    scan mode (escapeClose text) = scan mode text := by
  have behind : ∀ (before : Text) (mode : Mode),
      scan mode (before ++ escapeClose text) = scan mode (before ++ text) := by
    induction text with
    | nil => exact fun _ _ => rfl
    | cons c rest ih =>
        intro before mode
        have single := ih (before ++ [c]) mode
        rw [List.append_assoc, List.append_assoc, List.singleton_append, List.singleton_append]
          at single
        rw [escapeClose]
        split
        · rename_i tag
          obtain ⟨rfl, slash⟩ := tag
          obtain ⟨more, rfl⟩ := List.head?_eq_some_iff.mp slash
          rw [scan_append rfl, scan_append rfl, scan_slash, ← List.singleton_append,
            scan_append rfl]
          have alone : scan (scan mode before) ['<'] = scan mode before := by
            cases scan mode before <;> rfl
          rw [alone, scan_cons_of_ne (by decide) (by decide)]
          exact ih [] _
        · exact single
  exact behind [] mode

/-! ## The value of the literal -/

theorem skipBlank_escapeClose (text : Text) :
    skipBlank (escapeClose text) = escapeClose (skipBlank text) := by
  induction text with
  | nil => rfl
  | cons c rest ih =>
      cases blank : isJsonBlank c with
      | true =>
          have no_tag : c ≠ '<' := by
            rintro rfl
            cases blank
          rw [escapeClose_of_ne no_tag]
          change (c :: escapeClose rest).dropWhile isJsonBlank =
            escapeClose ((c :: rest).dropWhile isJsonBlank)
          rw [List.dropWhile_cons_of_pos blank, List.dropWhile_cons_of_pos blank]
          exact ih
      | false =>
          have dark : ¬isJsonBlank c = true := by
            rw [blank]
            exact Bool.false_ne_true
          change (escapeClose (c :: rest)).dropWhile isJsonBlank =
            escapeClose ((c :: rest).dropWhile isJsonBlank)
          rw [List.dropWhile_cons_of_neg dark, escapeClose]
          split
          · rw [List.dropWhile_cons_of_neg dark]
          · rw [List.dropWhile_cons_of_neg dark]

theorem readEscape_escapeClose {point : CodePoint} (read : readEscape text = some (point, rest)) :
    readEscape (escapeClose text) = some (point, escapeClose rest) := by
  have no_tag : ∀ {c : Char} {n : Nat}, hexValue c = some n → c ≠ '<' := by
    rintro c n digit rfl
    cases digit
  cases text with
  | nil => cases read
  | cons c behind =>
      unfold readEscape at read
      dsimp only at read
      split at read
      · rename_i unicode
        subst c
        split at read
        · simp only [Option.bind_eq_some_iff, Option.map_eq_some_iff, Prod.mk.injEq] at read
          obtain ⟨first, one, second, two, third, three, fourth, four, rfl, rfl⟩ := read
          rw [escapeClose_of_ne (by decide), escapeClose_of_ne (no_tag one),
            escapeClose_of_ne (no_tag two), escapeClose_of_ne (no_tag three),
            escapeClose_of_ne (no_tag four)]
          unfold readEscape
          dsimp only
          rw [if_pos rfl, one, two, three, four]
          rfl
        · cases read
      · rename_i ordinary
        obtain ⟨d, known, same⟩ := Option.map_eq_some_iff.mp read
        obtain ⟨rfl, rfl⟩ := Prod.mk.inj same
        have different : c ≠ '<' := by
          rintro rfl
          cases known
        rw [escapeClose_of_ne different]
        unfold readEscape
        dsimp only
        rw [if_neg ordinary, known]
        rfl

/-- An escaped slash is a slash. -/
theorem readPoints_slash (fuel : Nat) (text : Text) :
    readPoints fuel ('\\' :: '/' :: text) = readPoints fuel ('/' :: text) := by
  cases fuel with
  | zero => rfl
  | succ fuel => rfl

theorem readPoints_escapeClose {fuel more : Nat} {points : PyStr} (enough : fuel ≤ more)
    (read : readPoints fuel text = some (points, rest)) :
    readPoints more (escapeClose text) = some (points, escapeClose rest) := by
  induction fuel generalizing text points more with
  | zero => cases read
  | succ fuel ih =>
      obtain ⟨more, rfl⟩ : ∃ before, more = before + 1 := ⟨more - 1, by omega⟩
      have later := Nat.le_of_succ_le_succ enough
      cases text with
      | nil => cases read
      | cons c text =>
          rw [readPoints] at read
          rw [readPoints, head?_escapeClose]
          split at read
          · rename_i quote
            obtain rfl : c = '"' := Option.some.inj quote
            cases read
            rw [if_pos quote, escapeClose_of_ne (by decide)]
            rfl
          · rename_i inside
            obtain ⟨⟨point, behind⟩, first, read⟩ := Option.bind_eq_some_iff.mp read
            obtain ⟨⟨others, behind⟩, further, same⟩ := Option.map_eq_some_iff.mp read
            obtain ⟨rfl, rfl⟩ := Prod.mk.inj same
            have carried := ih later further
            rw [if_neg inside]
            rw [readPoint] at first
            split at first
            · rename_i backslash
              subst c
              rw [escapeClose_of_ne (by decide), readPoint, if_pos rfl,
                readEscape_escapeClose first, Option.bind_some]
              dsimp only
              rw [carried]
              rfl
            · rename_i no_escape
              split at first
              · cases first
              · rename_i visible
                cases first
                have shown : ∀ written, readPoint (c :: written) = some (.scalar c, written) := by
                  intro written
                  rw [readPoint, if_neg no_escape, if_neg visible]
                rw [escapeClose]
                split
                · rename_i tag
                  obtain ⟨slash, written⟩ := List.head?_eq_some_iff.mp tag.2
                  rw [written, escapeClose_of_ne (by decide)] at carried
                  rw [shown, Option.bind_some, written, escapeClose_of_ne (by decide)]
                  dsimp only
                  rw [readPoints_slash, carried]
                  rfl
                · rw [shown, Option.bind_some]
                  dsimp only
                  rw [carried]
                  rfl

section Readers

variable {α : Type} {read escaped : Text → Option (α × Text)} {closing : Char}

/-- The escaped text is read as the text is. -/
def Carries (read escaped : Text → Option (α × Text)) : Prop :=
  ∀ text value rest, read text = some (value, rest) →
    escaped (escapeClose text) = some (value, escapeClose rest)

theorem carries_readUnits : Carries readUnits readUnits := by
  intro text value rest found
  obtain ⟨⟨points, behind⟩, inside, same⟩ := Option.map_eq_some_iff.mp found
  obtain ⟨rfl, rfl⟩ := Prod.mk.inj same
  have enough := Nat.succ_le_succ (length_le_escapeClose text)
  rw [readUnits, readPoints_escapeClose enough inside]
  rfl

theorem readMembers_escapeClose (carries : Carries read escaped) (no_tag : closing ≠ '<')
    {fuel more : Nat} {items : List α} (enough : fuel ≤ more)
    (found : readMembers read closing fuel text = some (items, rest)) :
    readMembers escaped closing more (escapeClose text) = some (items, escapeClose rest) := by
  induction fuel generalizing text items more with
  | zero => cases found
  | succ fuel ih =>
      obtain ⟨more, rfl⟩ : ∃ before, more = before + 1 := ⟨more - 1, by omega⟩
      have later := Nat.le_of_succ_le_succ enough
      rw [readMembers] at found
      obtain ⟨⟨first, behind⟩, member, found⟩ := Option.bind_eq_some_iff.mp found
      dsimp only at found
      rw [readMembers, carries _ _ _ member, Option.bind_some]
      dsimp only
      rw [skipBlank_escapeClose]
      cases shown : skipBlank behind with
      | nil =>
          rw [shown] at found
          cases found
      | cons c further =>
          rw [shown] at found
          dsimp only at found
          split at found
          · rename_i comma
            subst c
            obtain ⟨⟨others, last⟩, more_found, same⟩ := Option.map_eq_some_iff.mp found
            obtain ⟨rfl, rfl⟩ := Prod.mk.inj same
            rw [escapeClose_of_ne (by decide)]
            dsimp only
            rw [if_pos rfl, ih later more_found]
            rfl
          · rename_i no_comma
            split at found
            · rename_i close
              subst c
              cases found
              rw [escapeClose_of_ne no_tag]
              dsimp only
              rw [if_neg no_comma, if_pos rfl]
            · cases found

theorem carries_readBracketed (carries : Carries read escaped) (no_tag : closing ≠ '<') :
    Carries (readBracketed read closing) (readBracketed escaped closing) := by
  intro text items rest found
  rw [readBracketed] at found
  rw [readBracketed, skipBlank_escapeClose]
  cases shown : skipBlank text with
  | nil =>
      rw [shown] at found
      cases found
  | cons c further =>
      rw [shown] at found
      dsimp only at found
      split at found
      · rename_i close
        subst c
        cases found
        rw [escapeClose_of_ne no_tag]
        dsimp only
        rw [if_pos rfl]
      · rename_i inside
        have enough := Nat.succ_le_succ (length_le_escapeClose text)
        have members := readMembers_escapeClose carries no_tag enough found
        have begun : ∃ behind, escapeClose (c :: further) = c :: behind := by
          have same := head?_escapeClose (c :: further)
          obtain ⟨behind, written⟩ := List.head?_eq_some_iff.mp same
          exact ⟨behind, written⟩
        obtain ⟨behind, written⟩ := begun
        rw [written] at members ⊢
        dsimp only
        rw [if_neg inside]
        exact members

end Readers

theorem carries_readProperty {read escaped : Text → Option (JsValue × Text)}
    (carries : Carries read escaped) : Carries (readProperty read) (readProperty escaped) := by
  intro text property rest found
  rw [readProperty] at found
  rw [readProperty, skipBlank_escapeClose]
  cases shown : skipBlank text with
  | nil =>
      rw [shown] at found
      cases found
  | cons c further =>
      rw [shown] at found
      dsimp only at found
      split at found
      · rename_i quote
        subst c
        obtain ⟨⟨key, behind⟩, name, found⟩ := Option.bind_eq_some_iff.mp found
        dsimp only at found
        rw [escapeClose_of_ne (by decide)]
        dsimp only
        rw [if_pos rfl, carries_readUnits _ _ _ name, Option.bind_some]
        dsimp only
        rw [skipBlank_escapeClose]
        cases colon : skipBlank behind with
        | nil =>
            rw [colon] at found
            cases found
        | cons d last =>
            rw [colon] at found
            dsimp only at found
            split at found
            · rename_i same
              subst d
              obtain ⟨⟨value, behind⟩, inside, same⟩ := Option.map_eq_some_iff.mp found
              obtain ⟨rfl, rfl⟩ := Prod.mk.inj same
              rw [escapeClose_of_ne (by decide)]
              dsimp only
              rw [if_pos rfl, carries _ _ _ inside]
              rfl
            · cases found
      · cases found

theorem carries_readLiteral {fuel more : Nat} (enough : fuel ≤ more) :
    Carries (readLiteral fuel) (readLiteral more) := by
  induction fuel generalizing more with
  | zero =>
      intro text value rest found
      cases found
  | succ fuel ih =>
      obtain ⟨more, rfl⟩ : ∃ before, more = before + 1 := ⟨more - 1, by omega⟩
      have carries : Carries (readLiteral fuel) (readLiteral more) :=
        ih (Nat.le_of_succ_le_succ enough)
      intro text value rest found
      rw [readLiteral] at found
      rw [readLiteral, skipBlank_escapeClose]
      cases shown : skipBlank text with
      | nil =>
          rw [shown] at found
          cases found
      | cons c further =>
          rw [shown] at found
          dsimp only at found
          split_ifs at found with quote list object
          · subst c
            obtain ⟨⟨s, behind⟩, inside, same⟩ := Option.map_eq_some_iff.mp found
            obtain ⟨rfl, rfl⟩ := Prod.mk.inj same
            rw [escapeClose_of_ne (by decide)]
            dsimp only
            rw [if_pos rfl, carries_readUnits _ _ _ inside]
            rfl
          · subst c
            obtain ⟨⟨items, behind⟩, inside, same⟩ := Option.map_eq_some_iff.mp found
            obtain ⟨rfl, rfl⟩ := Prod.mk.inj same
            rw [escapeClose_of_ne (by decide)]
            dsimp only
            rw [if_neg quote, if_pos rfl, carries_readBracketed carries (by decide) _ _ _ inside]
            rfl
          · subst c
            obtain ⟨⟨entries, behind⟩, members, same⟩ := Option.map_eq_some_iff.mp found
            obtain ⟨rfl, rfl⟩ := Prod.mk.inj same
            have inside :=
              carries_readBracketed (carries_readProperty carries) (by decide) _ _ _ members
            rw [escapeClose_of_ne (by decide)]
            dsimp only
            rw [if_neg quote, if_neg list, if_pos rfl, inside]
            rfl

/-- The escape changes no literal. -/
theorem evaluate_escapeClose {value : JsValue} (found : evaluate text = some value) :
    evaluate (escapeClose text) = some value := by
  obtain ⟨⟨read, rest⟩, inside, found⟩ := Option.bind_eq_some_iff.mp found
  dsimp only at found
  split at found
  · rename_i whole
    cases found
    have enough := Nat.succ_le_succ (length_le_escapeClose text)
    have last : skipBlank (escapeClose rest) = [] := by
      rw [skipBlank_escapeClose, whole]
      rfl
    rw [evaluate, carries_readLiteral enough _ _ _ inside, Option.bind_some]
    dsimp only
    rw [if_pos last]
  · cases found

end DataOlympus.Html
