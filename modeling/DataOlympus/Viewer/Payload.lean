import DataOlympus.Html.Embedded

/-!
# JSON as a script reads it

`json.dumps` prints strings, arrays and objects on one line and in ASCII.  Read as a literal of
a script, the text is the value; to the tokenizer, it is the strings that stand in it.
-/

namespace DataOlympus.Viewer

open Lines Html

/-! ## Printing -/

/-- An element of a string as `json.dumps` prints it in ASCII. -/
def escapePoint : CodePoint → Text
  | .surrogate offset => unicodeEscape (0xd800 + offset)
  | .scalar c => escapeAscii c

/-- A printed string. -/
def dumpsStr (s : PyStr) : Text :=
  '"' :: s.flatMap escapePoint ++ ['"']

/-- Printed members in brackets, behind the opening one. -/
def dumpsMembers (closing : Char) : List Text → Text
  | [] => [closing]
  | first :: more => first ++ (spaced [' '] id more ++ [closing])

/-- A printed list. -/
def dumpsArray (items : List Text) : Text :=
  '[' :: dumpsMembers ']' items

/-- A printed entry. -/
def dumpsEntry (entry : PyStr × Text) : Text :=
  dumpsStr entry.1 ++ ':' :: ' ' :: entry.2

/-- A printed dictionary. -/
def dumpsObject (entries : List (PyStr × Text)) : Text :=
  '\x7b' :: dumpsMembers '\x7d' (entries.map dumpsEntry)

example : dumpsObject [(PyStr.lit "a", dumpsArray []), (PyStr.lit "b", dumpsStr (PyStr.lit "é"))] =
    "\x7b\"a\": [], \"b\": \"\\u00e9\"\x7d".toList := by
  decide

/-! ## Reading -/

variable {α : Type} {text : Text} {value : JsValue} {depth : Nat}

/-- The elements that a script reads for an element. -/
def readBack : CodePoint → PyStr
  | .surrogate offset => [.surrogate offset]
  | .scalar c => halves c

theorem utf16_readBack (point : CodePoint) : utf16 (readBack point) = units point := by
  cases point with
  | surrogate offset => exact List.flatMap_singleton ..
  | scalar c =>
      have valid := toNat_valid c
      rw [readBack, halves, units]
      split
      · rename_i basic
        rw [utf16, List.flatMap_singleton, units, if_pos basic]
      · rename_i astral
        have high : (c.toNat - 0x10000) / 0x400 < 0x800 := by omega
        have low : 0xdc00 + (c.toNat - 0x10000) % 0x400 =
            0xd800 + (0x400 + (c.toNat - 0x10000) % 0x400) := by omega
        rw [low, ofNat_surrogate high, ofNat_surrogate (by omega)]
        rfl

theorem utf16_flatMap_readBack (s : PyStr) : utf16 (s.flatMap readBack) = utf16 s := by
  rw [utf16, List.flatMap_assoc]
  apply List.flatMap_congr
  intro point _
  exact utf16_readBack point

theorem readPoints_escapePoint (point : CodePoint) {fuel : Nat} {others : PyStr}
    {text rest : Text} (later : readPoints fuel text = some (others, rest)) :
    readPoints (fuel + (readBack point).length) (escapePoint point ++ text) =
      some (readBack point ++ others, rest) := by
  cases point with
  | scalar c => exact readPoints_escapeAscii c later
  | surrogate offset =>
      have small : 0xd800 + offset.val < 0x10000 := by omega
      obtain ⟨read, noQuote⟩ := readPoint_unicodeEscape small text
      rw [ofNat_surrogate offset.isLt] at read
      change readPoints (fuel + 1) (unicodeEscape (0xd800 + offset) ++ text) = _
      rw [readPoints, if_neg noQuote, read, Option.bind_some]
      dsimp only
      rw [later]
      rfl

theorem readPoints_printed (s : PyStr) {fuel : Nat} (enough : (s.flatMap readBack).length < fuel)
    (rest : Text) :
    readPoints fuel (s.flatMap escapePoint ++ '"' :: rest) = some (s.flatMap readBack, rest) := by
  induction s generalizing fuel with
  | nil =>
      cases fuel with
      | zero => cases enough
      | succ fuel => rfl
  | cons point others ih =>
      rw [List.flatMap_cons, List.length_append] at enough
      obtain ⟨more, rfl⟩ : ∃ more, fuel = more + (readBack point).length :=
        ⟨fuel - (readBack point).length, by omega⟩
      rw [List.flatMap_cons, List.flatMap_cons, List.append_assoc]
      exact readPoints_escapePoint point (ih (by omega))

theorem length_readBack_le (s : PyStr) :
    (s.flatMap readBack).length ≤ (s.flatMap escapePoint).length := by
  induction s with
  | nil => exact le_rfl
  | cons point others ih =>
      have first : (readBack point).length ≤ (escapePoint point).length := by
        cases point with
        | surrogate offset => exact Nat.succ_le_succ (Nat.zero_le _)
        | scalar c => exact length_halves_le c
      simp only [List.flatMap_cons, List.length_append]
      omega

theorem readUnits_printed (s : PyStr) (rest : Text) :
    readUnits (s.flatMap escapePoint ++ '"' :: rest) = some (utf16 s, rest) := by
  have shorter := length_readBack_le s
  have enough : (s.flatMap readBack).length <
      (s.flatMap escapePoint ++ '"' :: rest).length + 1 := by
    rw [List.length_append]
    omega
  rw [readUnits, readPoints_printed s enough, Option.map_some]
  dsimp only
  rw [utf16_flatMap_readBack]

/-- A text that a script reads as this value, whatever follows, with so many brackets nested. -/
structure Denotes (depth : Nat) (text : Text) (value : JsValue) : Prop where
  begins : ∃ c behind, text = c :: behind ∧ isJsonBlank c = false ∧ c ≠ ']'
  reads : ∀ fuel, depth < fuel → ∀ gap rest, Blanks gap →
    readLiteral fuel (gap ++ text ++ rest) = some (value, rest)

theorem Denotes.mono {deeper : Nat} (denotes : Denotes depth text value)
    (within : depth ≤ deeper) : Denotes deeper text value :=
  ⟨denotes.begins, fun fuel enough => denotes.reads fuel (Nat.lt_of_le_of_lt within enough)⟩

theorem denotes_dumpsStr (s : PyStr) : Denotes 0 (dumpsStr s) (.str (utf16 s)) := by
  refine ⟨⟨'"', _, rfl, rfl, by decide⟩, ?_⟩
  intro fuel enough gap rest blanks
  obtain ⟨fuel, rfl⟩ : ∃ before, fuel = before + 1 := ⟨fuel - 1, by omega⟩
  have whole : gap ++ dumpsStr s ++ rest =
      gap ++ '"' :: (s.flatMap escapePoint ++ '"' :: rest) := by
    simp [dumpsStr]
  rw [whole, readLiteral, skipBlank_blanks blanks rfl]
  dsimp only
  rw [if_pos rfl, readUnits_printed]
  rfl

/-- Printed members are read back. -/
theorem readBracketed_dumpsMembers {member : Text → Option (α × Text)} {closing : Char}
    (items : List (Text × α))
    (reads : ∀ item ∈ items, ReadsAnywhere member Prod.fst Prod.snd item)
    (begins : ∀ item ∈ items, ∃ c behind, item.1 = c :: behind ∧ isJsonBlank c = false ∧
      c ≠ closing)
    (visible : isJsonBlank closing = false) (different : closing ≠ ',') (rest : Text) :
    readBracketed member closing (dumpsMembers closing (items.map Prod.fst) ++ rest) =
      some (items.map Prod.snd, rest) := by
  cases items with
  | nil =>
      have skipped := skipBlank_blanks (List.forall_mem_nil _) visible rest
      rw [List.nil_append] at skipped
      change readBracketed member closing (closing :: rest) = _
      rw [readBracketed, skipped]
      dsimp only
      rw [if_pos rfl]
      rfl
  | cons first more =>
      obtain ⟨c, behind, text, shown, opens⟩ := begins first List.mem_cons_self
      have between : spaced [' '] id (more.map Prod.fst) = spaced [' '] Prod.fst more :=
        List.flatMap_map ..
      have whole : dumpsMembers closing ((first :: more).map Prod.fst) ++ rest =
          [] ++ first.1 ++ (spaced [' '] Prod.fst more ++ ([] ++ closing :: rest)) := by
        rw [List.map_cons, dumpsMembers, between]
        simp
      have enough : more.length <
          ([] ++ first.1 ++
            (spaced [' '] Prod.fst more ++ ([] ++ closing :: rest))).length + 1 := by
        have shorter := length_le_spaced [' '] Prod.fst more
        simp only [List.length_append]
        omega
      have read := readMembers_spaced reads visible different
        (List.forall_mem_singleton.mpr (rfl : isJsonBlank ' ' = true)) (List.forall_mem_nil _)
        enough (List.forall_mem_nil _) rest
      rw [whole]
      rw [List.nil_append, text, List.cons_append] at read ⊢
      have skipped := skipBlank_blanks (List.forall_mem_nil _) shown
        (behind ++ (spaced [' '] Prod.fst more ++ ([] ++ closing :: rest)))
      rw [List.nil_append] at skipped
      rw [readBracketed, skipped]
      dsimp only
      rw [if_neg opens]
      exact read

/-- A list of literals is a literal. -/
theorem denotes_dumpsArray {items : List (Text × JsValue)}
    (denotes : ∀ item ∈ items, Denotes depth item.1 item.2) :
    Denotes (depth + 1) (dumpsArray (items.map Prod.fst)) (.arr (items.map Prod.snd)) := by
  refine ⟨⟨'[', _, rfl, rfl, by decide⟩, ?_⟩
  intro fuel enough gap rest blanks
  obtain ⟨fuel, rfl⟩ : ∃ before, fuel = before + 1 := ⟨fuel - 1, by omega⟩
  have whole : gap ++ dumpsArray (items.map Prod.fst) ++ rest =
      gap ++ '[' :: (dumpsMembers ']' (items.map Prod.fst) ++ rest) := by
    simp [dumpsArray]
  have reads : ∀ item ∈ items, ReadsAnywhere (readLiteral fuel) Prod.fst Prod.snd item := by
    intro item member gap rest blanks
    exact (denotes item member).reads fuel (by omega) gap rest blanks
  have inside := readBracketed_dumpsMembers items reads
    (fun item member => (denotes item member).begins) rfl (by decide) rest
  rw [whole, readLiteral, skipBlank_blanks blanks rfl]
  dsimp only
  rw [if_neg (by decide), if_pos rfl, inside]
  rfl

theorem readProperty_dumpsEntry {fuel : Nat} (enough : depth < fuel) (key : PyStr)
    (denotes : Denotes depth text value) :
    ReadsAnywhere (readProperty (readLiteral fuel)) Prod.fst Prod.snd
      (dumpsEntry (key, text), (utf16 key, value)) := by
  intro gap rest blanks
  have whole : gap ++ dumpsEntry (key, text) ++ rest =
      gap ++ '"' :: (key.flatMap escapePoint ++ '"' :: (':' :: ([' '] ++ text ++ rest))) := by
    simp [dumpsEntry, dumpsStr]
  have colon := skipBlank_blanks (List.forall_mem_nil _) (c := ':') rfl ([' '] ++ text ++ rest)
  have found := denotes.reads fuel enough [' '] rest (List.forall_mem_singleton.mpr rfl)
  rw [List.nil_append] at colon
  change readProperty _ (gap ++ dumpsEntry (key, text) ++ rest) = _
  rw [whole, readProperty, skipBlank_blanks blanks rfl]
  dsimp only
  rw [if_pos rfl, readUnits_printed, Option.bind_some]
  dsimp only
  rw [colon]
  dsimp only
  rw [if_pos rfl, found]
  rfl

/-- An entry of a dictionary with the value that its text has in a script. -/
abbrev Entry := PyStr × Text × JsValue

/-- A dictionary of literals is an object literal. -/
theorem denotes_dumpsObject {entries : List Entry}
    (denotes : ∀ entry ∈ entries, Denotes depth entry.2.1 entry.2.2) :
    Denotes (depth + 1) (dumpsObject (entries.map fun entry => (entry.1, entry.2.1)))
      (objectOf (entries.map fun entry => (utf16 entry.1, entry.2.2))) := by
  refine ⟨⟨'\x7b', _, rfl, rfl, by decide⟩, ?_⟩
  intro fuel enough gap rest blanks
  obtain ⟨fuel, rfl⟩ : ∃ before, fuel = before + 1 := ⟨fuel - 1, by omega⟩
  let members : List (Text × (List Nat × JsValue)) :=
    entries.map fun entry => (dumpsEntry (entry.1, entry.2.1), (utf16 entry.1, entry.2.2))
  have printed : members.map Prod.fst =
      (entries.map fun entry => (entry.1, entry.2.1)).map dumpsEntry := by
    rw [List.map_map, List.map_map]
    rfl
  have values : members.map Prod.snd = entries.map fun entry => (utf16 entry.1, entry.2.2) := by
    rw [List.map_map]
    rfl
  have whole : gap ++ dumpsObject (entries.map fun entry => (entry.1, entry.2.1)) ++ rest =
      gap ++ '\x7b' :: (dumpsMembers '\x7d' (members.map Prod.fst) ++ rest) := by
    rw [printed]
    simp [dumpsObject]
  have reads : ∀ member ∈ members,
      ReadsAnywhere (readProperty (readLiteral fuel)) Prod.fst Prod.snd member := by
    intro member among
    obtain ⟨entry, here, rfl⟩ := List.mem_map.mp among
    exact readProperty_dumpsEntry (by omega) entry.1 (denotes entry here)
  have begins : ∀ member ∈ members, ∃ c behind, member.1 = c :: behind ∧
      isJsonBlank c = false ∧ c ≠ '\x7d' := by
    intro member among
    obtain ⟨entry, here, rfl⟩ := List.mem_map.mp among
    exact ⟨'"', _, rfl, rfl, by decide⟩
  have inside := readBracketed_dumpsMembers members reads begins rfl (by decide) rest
  rw [whole, readLiteral, skipBlank_blanks blanks rfl]
  dsimp only
  rw [if_neg (by decide), if_neg (by decide), if_pos rfl, inside, values]
  rfl

theorem evaluate_of_denotes (denotes : Denotes depth text value)
    (deep : depth ≤ text.length) : evaluate text = some value := by
  have read := denotes.reads (text.length + 1) (by omega) [] [] (List.forall_mem_nil _)
  rw [List.nil_append, List.append_nil] at read
  rw [evaluate, read]
  rfl

/-! ## Scanning -/

/-- A character that is printed as it is. -/
def isShown (c : Char) : Bool :=
  0x20 ≤ c.toNat && c.toNat < 0x7f && c ≠ '"' && c ≠ '\\'

/-- What the tokenizer sees of an element of a string: an escape is no part of any mark. -/
def shownPoint : CodePoint → Char
  | .surrogate _ => '"'
  | .scalar c => if isShown c then c else '"'

/-- What the tokenizer sees of a string. -/
def shown (s : PyStr) : Text :=
  s.map shownPoint

/-- A text carries the marks of these strings. -/
def Acts (text : Text) (strings : List PyStr) : Prop :=
  ∀ mode rest, scan mode (text ++ rest) =
    scan (strings.foldl (fun mode s => scan mode (shown s)) mode) rest

/-- No mark begins with this character. -/
def isInert (c : Char) : Bool :=
  c ≠ '<' && c ≠ '-'

theorem acts_inert {text : Text} (inert : text.all isInert = true) : Acts text [] := by
  intro mode rest
  induction text with
  | nil => rfl
  | cons c text ih =>
      rw [List.all_cons, Bool.and_eq_true] at inert
      obtain ⟨first, further⟩ := inert
      simp only [isInert, Bool.and_eq_true, decide_eq_true_eq] at first
      rw [List.cons_append, scan_cons_of_ne first.1 first.2]
      exact ih further

theorem Acts.append {first second : Text} {left right : List PyStr} (acts : Acts first left)
    (further : Acts second right) : Acts (first ++ second) (left ++ right) := by
  intro mode rest
  rw [List.append_assoc, acts, further, List.foldl_append]

theorem inert_unicodeEscape (n : Nat) : (unicodeEscape n).all isInert = true := by
  have digit : ∀ n, n < 16 → isInert (hexDigit n) = true := by decide
  simp only [unicodeEscape, List.all_cons, List.all_nil, Bool.and_true, Bool.and_eq_true]
  exact ⟨by decide, by decide, digit _ (Nat.mod_lt _ (by decide)),
    digit _ (Nat.mod_lt _ (by decide)), digit _ (Nat.mod_lt _ (by decide)),
    digit _ (Nat.mod_lt _ (by decide))⟩

/-- An element is printed as it is, or as an escape without a mark. -/
theorem escapePoint_cases (point : CodePoint) :
    escapePoint point = [shownPoint point] ∨
      shownPoint point = '"' ∧ ∃ written, escapePoint point = '\\' :: written ∧
        written.all isInert = true := by
  have unicode : ∀ n, ∃ written, unicodeEscape n = '\\' :: written ∧
      written.all isInert = true := by
    intro n
    have inert := inert_unicodeEscape n
    exact ⟨_, rfl, (Bool.and_eq_true_iff.mp inert).2⟩
  cases point with
  | surrogate offset => exact .inr ⟨rfl, unicode _⟩
  | scalar c =>
      have hidden : isShown c = false → shownPoint (.scalar c) = '"' := by
        intro dark
        rw [shownPoint, if_neg (by rw [dark]; exact Bool.false_ne_true)]
      have digit : ∀ n, n < 16 → isInert (hexDigit n) = true := by decide
      rw [escapePoint, escapeAscii]
      split
      · rename_i ascii
        unfold CodePoint.escape
        dsimp only
        split_ifs with quote backslash newline carriage tab bell feed control
        · subst c
          exact .inr ⟨rfl, _, rfl, rfl⟩
        · subst c
          exact .inr ⟨rfl, _, rfl, rfl⟩
        · subst c
          exact .inr ⟨rfl, _, rfl, rfl⟩
        · subst c
          exact .inr ⟨rfl, _, rfl, rfl⟩
        · subst c
          exact .inr ⟨rfl, _, rfl, rfl⟩
        · subst c
          exact .inr ⟨rfl, _, rfl, rfl⟩
        · subst c
          exact .inr ⟨rfl, _, rfl, rfl⟩
        · have dark : isShown c = false := by
            rw [isShown, decide_eq_false (Nat.not_le.mpr control)]
            rfl
          refine .inr ⟨hidden dark, _, rfl, ?_⟩
          simp only [List.all_cons, List.all_nil, Bool.and_true, Bool.and_eq_true]
          exact ⟨by decide, by decide, by decide, digit _ (by omega),
            digit _ (Nat.mod_lt _ (by decide))⟩
        · have visible : isShown c = true := by
            simp only [isShown, Bool.and_eq_true, decide_eq_true_eq]
            exact ⟨⟨⟨Nat.not_lt.mp control, ascii⟩, quote⟩, backslash⟩
          left
          rw [shownPoint, if_pos visible]
      · rename_i beyond
        have dark : isShown c = false := by
          rw [isShown, decide_eq_false beyond, Bool.and_false]
          rfl
        refine .inr ⟨hidden dark, ?_⟩
        split
        · exact unicode _
        · obtain ⟨high, first, inert⟩ := unicode (0xd800 + (c.toNat - 0x10000) / 0x400)
          refine ⟨high ++ unicodeEscape (0xdc00 + (c.toNat - 0x10000) % 0x400), ?_, ?_⟩
          · rw [first, List.cons_append]
          · rw [List.all_append, inert, inert_unicodeEscape]
            rfl

/-- A printed string acts by what is seen of it. -/
theorem scan_escaped (s : PyStr) (mode : Mode) (before rest : Text) :
    scan mode (before ++ (s.flatMap escapePoint ++ '"' :: rest)) =
      scan (scan mode (before ++ shown s)) rest := by
  induction s generalizing mode before with
  | nil =>
      change scan mode (before ++ '"' :: rest) = scan (scan mode (before ++ [])) rest
      rw [List.append_nil, scan_append rfl, scan_cons_of_ne (by decide) (by decide)]
  | cons point s ih =>
      have seen : shown (point :: s) = shownPoint point :: shown s := List.map_cons
      rw [List.flatMap_cons, List.append_assoc, seen]
      obtain plain | ⟨quote, written, escape, inert⟩ := escapePoint_cases point
      · have single := ih mode (before ++ [shownPoint point])
        rw [List.append_assoc, List.append_assoc] at single
        rw [plain]
        exact single
      · have further := ih (scan mode before) []
        have skipped := acts_inert inert (scan mode before)
          (s.flatMap escapePoint ++ '"' :: rest)
        rw [List.nil_append, List.nil_append] at further
        rw [List.foldl_nil] at skipped
        rw [escape, List.cons_append, scan_append rfl, scan_cons_of_ne (by decide) (by decide),
          skipped, further, quote, scan_append rfl, scan_cons_of_ne (by decide) (by decide)]

theorem acts_dumpsStr (s : PyStr) : Acts (dumpsStr s) [s] := by
  intro mode rest
  have whole : dumpsStr s ++ rest = '"' :: ([] ++ (s.flatMap escapePoint ++ '"' :: rest)) := by
    simp [dumpsStr]
  rw [whole, scan_cons_of_ne (by decide) (by decide), scan_escaped]
  rfl

/-- Members act one by one. -/
theorem acts_dumpsMembers {closing : Char} (inert : isInert closing = true)
    {items : List (Text × List PyStr)} (acts : ∀ item ∈ items, Acts item.1 item.2) :
    Acts (dumpsMembers closing (items.map Prod.fst)) (items.flatMap Prod.snd) := by
  have close : Acts [closing] [] := by
    apply acts_inert
    rw [List.all_cons, inert]
    rfl
  cases items with
  | nil => exact close
  | cons first more =>
      obtain ⟨here, further⟩ := List.forall_mem_cons.mp acts
      have behind : Acts (spaced [' '] id (more.map Prod.fst)) (more.flatMap Prod.snd) := by
        clear acts here
        induction more with
        | nil => exact acts_inert rfl
        | cons second more ih =>
            obtain ⟨here, further⟩ := List.forall_mem_cons.mp further
            have comma : Acts [',', ' '] [] := acts_inert rfl
            exact (comma.append here).append (ih further)
      have whole := here.append (behind.append close)
      rwa [List.append_nil] at whole

theorem acts_dumpsArray {items : List (Text × List PyStr)}
    (acts : ∀ item ∈ items, Acts item.1 item.2) :
    Acts (dumpsArray (items.map Prod.fst)) (items.flatMap Prod.snd) := by
  have bracket : Acts ['['] [] := acts_inert rfl
  exact bracket.append (acts_dumpsMembers rfl acts)

theorem acts_dumpsEntry {text : Text} {strings : List PyStr} (key : PyStr)
    (acts : Acts text strings) : Acts (dumpsEntry (key, text)) (key :: strings) := by
  have colon : Acts [':', ' '] [] := acts_inert rfl
  exact (acts_dumpsStr key).append (colon.append acts)

theorem acts_dumpsObject {entries : List (PyStr × Text × List PyStr)}
    (acts : ∀ entry ∈ entries, Acts entry.2.1 entry.2.2) :
    Acts (dumpsObject (entries.map fun entry => (entry.1, entry.2.1)))
      (entries.flatMap fun entry => entry.1 :: entry.2.2) := by
  let members : List (Text × List PyStr) :=
    entries.map fun entry => (dumpsEntry (entry.1, entry.2.1), entry.1 :: entry.2.2)
  have bracket : Acts ['\x7b'] [] := acts_inert rfl
  have inside : Acts (dumpsMembers '\x7d' (members.map Prod.fst)) (members.flatMap Prod.snd) := by
    apply acts_dumpsMembers rfl
    intro member among
    obtain ⟨entry, here, rfl⟩ := List.mem_map.mp among
    exact acts_dumpsEntry entry.1 (acts entry here)
  have printed : members.map Prod.fst =
      (entries.map fun entry => (entry.1, entry.2.1)).map dumpsEntry := by
    rw [List.map_map, List.map_map]
    rfl
  have carried : members.flatMap Prod.snd = entries.flatMap fun entry => entry.1 :: entry.2.2 :=
    List.flatMap_map ..
  have whole := bracket.append inside
  rw [printed, carried] at whole
  exact whole

end DataOlympus.Viewer
