import Mathlib.Tactic.Tauto
import DataOlympus.Python.Dict
import DataOlympus.Search.Ranking
import DataOlympus.Text.Case

/-!
# Synonym expansion

The curated groups become a lookup in which every member points at every other one.  The
expander keeps the terms of the query in front and appends the synonyms of every window of
neighboring terms, each once and up to a bound.
-/

namespace DataOlympus.Expansion

open Lines Python

/-! ## The lookup -/

/-- Append what is not there yet. -/
def addFresh (out items : List Text) : List Text :=
  items.foldl (fun out item => if item ∈ out then out else out ++ [item]) out

theorem mem_addFresh {out items : List Text} {text : Text} :
    text ∈ addFresh out items ↔ text ∈ out ∨ text ∈ items := by
  unfold addFresh
  induction items generalizing out with
  | nil => simp
  | cons item rest ih =>
      rw [List.foldl_cons, ih]
      by_cases known : item ∈ out
      · rw [if_pos known, List.mem_cons]
        constructor
        · rintro (old | later)
          · exact .inl old
          · exact .inr (.inr later)
        · rintro (old | rfl | later)
          · exact .inl old
          · exact .inl known
          · exact .inr later
      · rw [if_neg known, List.mem_append, List.mem_singleton, List.mem_cons, or_assoc]

theorem nodup_addFresh {out : List Text} (once : out.Nodup) (items : List Text) :
    (addFresh out items).Nodup := by
  unfold addFresh
  induction items generalizing out with
  | nil => exact once
  | cons item rest ih =>
      rw [List.foldl_cons]
      by_cases known : item ∈ out
      · rw [if_pos known]
        exact ih once
      · rw [if_neg known, ← List.concat_eq_append]
        exact ih (once.concat known)

theorem addFresh_of_nodup {out items : List Text} (once : (out ++ items).Nodup) :
    addFresh out items = out ++ items := by
  unfold addFresh
  induction items generalizing out with
  | nil => exact (List.append_nil out).symm
  | cons item rest ih =>
      have fresh : item ∉ out := fun known =>
        (List.nodup_append.mp once).2.2 item known item List.mem_cons_self rfl
      rw [List.append_cons] at once
      rw [List.foldl_cons, if_neg fresh, ih once, List.append_assoc]
      rfl

theorem nodup_eraseDups (items : List Text) : items.eraseDups.Nodup := by
  induction size : items.length using Nat.strongRecOn generalizing items with
  | ind n ih =>
      cases items with
      | nil => exact List.nodup_nil
      | cons item rest =>
          rw [List.eraseDups_cons, List.nodup_cons, List.mem_eraseDups, List.mem_filter]
          have shorter := List.length_filter_le (fun other => !other == item) rest
          refine ⟨by simp, ih _ ?_ _ rfl⟩
          rw [← size, List.length_cons]
          omega

theorem nodup_primaryTerms (query : Text) : (primaryTerms query).Nodup :=
  (nodup_eraseDups _).sublist (List.take_sublist _ _)

section Lookup

variable (lower : Text → Text)

/-- The members of a group, each once. -/
def members (group : Text × List Text) : List Text :=
  addFresh [] ((group.1 :: group.2).map lower)

/-- One member of a group in the lookup. -/
def addMember (ordered : List Text) (lookup : Dict Text (List Text)) (member : Text) :
    Dict Text (List Text) :=
  lookup.set member
    (addFresh ((lookup.get member).getD []) (ordered.filter fun other => other ≠ member))

/-- `build_synonym_map(groups)`. -/
def buildSynonymMap (groups : Dict Text (List Text)) : Dict Text (List Text) :=
  groups.items.foldl (fun lookup group =>
    (members lower group).foldl (addMember (members lower group)) lookup) Dict.empty

/-- The synonyms of a key. -/
def synonymsOf (lookup : Dict Text (List Text)) (key : Text) : List Text :=
  (lookup.get key).getD []

theorem synonymsOf_addMember (ordered : List Text) (lookup : Dict Text (List Text))
    (member key : Text) : synonymsOf (addMember ordered lookup member) key =
      if key = member then
        addFresh (synonymsOf lookup member) (ordered.filter fun other => other ≠ member)
      else synonymsOf lookup key := by
  unfold synonymsOf addMember
  by_cases same : key = member
  · rw [same, Dict.get_set, if_pos rfl]
    rfl
  · rw [Dict.get_set_of_ne _ _ same, if_neg same]

/-- A group adds the other members to each of its members. -/
theorem mem_synonymsOf_foldl {ordered rest : List Text} {lookup : Dict Text (List Text)}
    {key text : Text} : text ∈ synonymsOf (rest.foldl (addMember ordered) lookup) key ↔
      text ∈ synonymsOf lookup key ∨ key ∈ rest ∧ text ∈ ordered ∧ text ≠ key := by
  induction rest generalizing lookup with
  | nil => simp
  | cons member rest ih =>
      rw [List.foldl_cons, ih, synonymsOf_addMember]
      by_cases same : key = member
      · subst key
        simp only [if_true, mem_addFresh, List.mem_filter, decide_eq_true_eq, List.mem_cons,
          true_or, true_and]
        tauto
      · simp only [same, if_false, List.mem_cons, false_or]

/-- Two texts are synonyms if they are different members of one group. -/
def Synonyms (groups : Dict Text (List Text)) (key text : Text) : Prop :=
  ∃ group ∈ groups.items, key ∈ members lower group ∧ text ∈ members lower group ∧ text ≠ key

variable {lower}

theorem Synonyms.symm {groups : Dict Text (List Text)} {key text : Text}
    (synonyms : Synonyms lower groups key text) : Synonyms lower groups text key := by
  rcases synonyms with ⟨group, member, first, second, different⟩
  exact ⟨group, member, second, first, different.symm⟩

/-- The lookup holds exactly the synonyms. -/
theorem mem_synonymsOf_buildSynonymMap {groups : Dict Text (List Text)} {key text : Text} :
    text ∈ synonymsOf (buildSynonymMap lower groups) key ↔ Synonyms lower groups key text := by
  have fold : ∀ (rest : List (Text × List Text)) (lookup : Dict Text (List Text)),
      text ∈ synonymsOf (rest.foldl (fun lookup group =>
        (members lower group).foldl (addMember (members lower group)) lookup) lookup) key ↔
      text ∈ synonymsOf lookup key ∨ ∃ group ∈ rest, key ∈ members lower group ∧
        text ∈ members lower group ∧ text ≠ key := by
    intro rest
    induction rest with
    | nil => simp
    | cons group rest ih =>
        intro lookup
        rw [List.foldl_cons, ih, mem_synonymsOf_foldl]
        simp only [List.mem_cons, exists_eq_or_imp, or_assoc]
  have empty : synonymsOf Dict.empty key = [] := rfl
  rw [buildSynonymMap, fold, empty]
  simp [Synonyms]

/-- What the lookup answers is a key of it. -/
theorem mem_keys_of_mem_synonymsOf {lookup : Dict Text (List Text)} {key text : Text}
    (found : text ∈ synonymsOf lookup key) : key ∈ lookup.items.map Prod.fst := by
  unfold synonymsOf at found
  cases stored : lookup.get key with
  | none =>
      rw [stored] at found
      cases found
  | some held => exact List.mem_map_of_mem (Dict.get_eq_some_iff.mp stored)

end Lookup

/-! ## Growing up to a bound -/

/-- The list `grown` holds `out` and, behind it, items of `offered`, each once and up to the
bound; `more` says whether all of them were looked at. -/
structure Grows (maxTerms : Nat) (out offered grown : List Text) (more : Bool) : Prop where
  keeps : out <+: grown
  once : out.Nodup → grown.Nodup
  bounded : grown.length ≤ max maxTerms out.length
  offers : ∀ text ∈ grown, text ∈ out ∨ text ∈ offered
  complete : more = true → ∀ text ∈ offered, text ∈ grown
  full : more = false → maxTerms ≤ grown.length

namespace Grows

variable {maxTerms : Nat} {out first second middle grown : List Text} {more : Bool}

theorem refl (maxTerms : Nat) (out : List Text) : Grows maxTerms out [] out true where
  keeps := List.prefix_refl out
  once := id
  bounded := le_max_right _ _
  offers := fun _ member => .inl member
  complete := fun _ _ member => absurd member List.not_mem_nil
  full := nofun

theorem trans (before : Grows maxTerms out first middle true)
    (behind : Grows maxTerms middle second grown more) :
    Grows maxTerms out (first ++ second) grown more where
  keeps := before.keeps.trans behind.keeps
  once := behind.once ∘ before.once
  bounded := by
    have fewer := before.bounded
    have few := behind.bounded
    omega
  offers := by
    intro text member
    rcases behind.offers text member with old | new
    · exact (before.offers text old).imp_right (List.mem_append_left second)
    · exact .inr (List.mem_append_right first new)
  complete := by
    intro isMore text member
    rcases List.mem_append.mp member with early | late
    · exact behind.keeps.subset (before.complete rfl text early)
    · exact behind.complete isMore text late
  full := behind.full

/-- Without room nothing that follows is looked at. -/
theorem stop (before : Grows maxTerms out first middle false) (second : List Text) :
    Grows maxTerms out (first ++ second) middle false where
  keeps := before.keeps
  once := before.once
  bounded := before.bounded
  offers := fun text member => (before.offers text member).imp_right (List.mem_append_left second)
  complete := nofun
  full := before.full

end Grows

/-- `add_synonyms(key)`: the terms behind the synonyms of a key, and whether there was room. -/
def addSynonyms (maxTerms : Nat) : List Text → List Text → List Text × Bool
  | out, [] => (out, true)
  | out, synonym :: rest =>
      if maxTerms ≤ out.length then (out, false)
      else addSynonyms maxTerms (if synonym ∈ out then out else out ++ [synonym]) rest

theorem grows_addSynonyms (maxTerms : Nat) (out synonyms : List Text) :
    Grows maxTerms out synonyms (addSynonyms maxTerms out synonyms).1
      (addSynonyms maxTerms out synonyms).2 := by
  induction synonyms generalizing out with
  | nil => exact Grows.refl maxTerms out
  | cons synonym rest ih =>
      unfold addSynonyms
      by_cases noRoom : maxTerms ≤ out.length
      · rw [if_pos noRoom]
        exact ⟨List.prefix_refl out, id, le_max_right _ _, fun _ member => .inl member, nofun,
          fun _ => noRoom⟩
      · rw [if_neg noRoom]
        have one : Grows maxTerms out [synonym]
            (if synonym ∈ out then out else out ++ [synonym]) true := by
          by_cases known : synonym ∈ out
          · rw [if_pos known]
            exact ⟨List.prefix_refl out, id, le_max_right _ _, fun _ member => .inl member,
              fun _ text member => List.mem_singleton.mp member ▸ known, nofun⟩
          · rw [if_neg known]
            constructor
            · exact List.prefix_append _ _
            · rw [← List.concat_eq_append]
              exact fun once => once.concat known
            · rw [List.length_append, List.length_singleton]
              omega
            · exact fun text member => List.mem_append.mp member
            · exact fun _ text member => List.mem_append_right out member
            · exact nofun
        exact one.trans (ih _)

/-- The loops over the keys, which end where the bound is reached. -/
def addKeys (lookup : Dict Text (List Text)) (maxTerms : Nat) :
    List Text → List Text → List Text × Bool
  | out, [] => (out, true)
  | out, key :: keys =>
      match addSynonyms maxTerms out (synonymsOf lookup key) with
      | (grown, true) => addKeys lookup maxTerms grown keys
      | (grown, false) => (grown, false)

theorem grows_addKeys (lookup : Dict Text (List Text)) (maxTerms : Nat) (out keys : List Text) :
    Grows maxTerms out (keys.flatMap (synonymsOf lookup)) (addKeys lookup maxTerms out keys).1
      (addKeys lookup maxTerms out keys).2 := by
  induction keys generalizing out with
  | nil => exact Grows.refl maxTerms out
  | cons key keys ih =>
      have first := grows_addSynonyms maxTerms out (synonymsOf lookup key)
      unfold addKeys
      rw [List.flatMap_cons]
      cases added : addSynonyms maxTerms out (synonymsOf lookup key) with
      | mk grown more =>
          rw [added] at first
          cases more with
          | true => exact first.trans (ih grown)
          | false => exact first.stop _

/-! ## The windows of a query -/

/-- A text that `str.split` leaves in one piece. -/
def IsWord (text : Text) : Prop :=
  text ≠ [] ∧ ∀ c ∈ text, isSpace c = false

theorem wordsAfter_append {letters word : Text} (solid : ∀ c ∈ word, isSpace c = false)
    (rest : Text) : wordsAfter isSpace letters (word ++ rest) =
      wordsAfter isSpace (word.reverse ++ letters) rest := by
  induction word generalizing letters with
  | nil => rfl
  | cons c word ih =>
      have first : isSpace c = false := solid c List.mem_cons_self
      rw [List.cons_append, wordsAfter, if_neg (Bool.eq_false_iff.mp first),
        ih (fun d member => solid d (List.mem_cons_of_mem c member)), List.reverse_cons,
        List.append_assoc]
      rfl

/-- Splitting gives back the words that were joined. -/
theorem words_join {parts : List Text} (areWords : ∀ part ∈ parts, IsWord part) :
    words isSpace ([' '].intercalate parts) = parts := by
  induction parts with
  | nil => rfl
  | cons part parts ih =>
      have first := areWords part List.mem_cons_self
      have others := ih fun other member => areWords other (List.mem_cons_of_mem part member)
      have filled : (part.reverse ++ []).isEmpty = false := by
        rw [List.append_nil, List.isEmpty_eq_false_iff]
        exact fun empty => first.1 (List.reverse_eq_nil_iff.mp empty)
      cases parts with
      | nil =>
          have alone : [' '].intercalate [part] = part ++ [] := by simp [List.intercalate]
          rw [alone, words, wordsAfter_append first.2, wordsAfter, filled, List.append_nil,
            List.reverse_reverse]
          rfl
      | cons next parts =>
          have joined : [' '].intercalate (part :: next :: parts) =
              part ++ ' ' :: [' '].intercalate (next :: parts) := by simp [List.intercalate]
          rw [joined, words, wordsAfter_append first.2, wordsAfter, if_pos (by decide), filled,
            List.append_nil, List.reverse_reverse]
          exact congrArg (part :: ·) others

theorem isWord_of_mem_wordsAfter {letters text word : Text}
    (solid : ∀ c ∈ letters, isSpace c = false) (member : word ∈ wordsAfter isSpace letters text) :
    IsWord word := by
  have nothing : ∀ c ∈ ([] : Text), isSpace c = false :=
    fun c inside => absurd inside List.not_mem_nil
  have whole {letters : Text} (solid : ∀ c ∈ letters, isSpace c = false)
      (filled : ¬letters.isEmpty = true) : IsWord letters.reverse := by
    constructor
    · exact fun empty => filled (List.isEmpty_iff.mpr (List.reverse_eq_nil_iff.mp empty))
    · exact fun c inWord => solid c (List.mem_reverse.mp inWord)
  induction text generalizing letters with
  | nil =>
      unfold wordsAfter at member
      split at member
      · cases member
      · rename_i filled
        exact List.mem_singleton.mp member ▸ whole solid filled
  | cons c rest ih =>
      unfold wordsAfter at member
      split at member
      · split at member
        · exact ih nothing member
        · rename_i filled
          rcases List.mem_cons.mp member with rfl | later
          · exact whole solid filled
          · exact ih nothing later
      · rename_i visible
        exact ih (List.forall_mem_cons.mpr ⟨Bool.eq_false_iff.mpr visible, solid⟩) member

theorem isWord_of_mem_primaryTerms {query term : Text} (member : term ∈ primaryTerms query) :
    IsWord term :=
  isWord_of_mem_wordsAfter (fun _ inside => absurd inside List.not_mem_nil)
    (List.mem_eraseDups.mp (List.mem_of_mem_take member))

section Windows

variable (lower : Text → Text)

/-- What the lookup is asked for a window of neighboring terms. -/
def windowKey (window : List Text) : Text :=
  [' '].intercalate (window.map lower)

/-- `max((len(k.split()) for k in lookup), default=1)`. -/
def maxKeyLen (lookup : Dict Text (List Text)) : Nat :=
  ((lookup.items.map fun item => (words isSpace item.1).length).max?).getD 1

/-- The windows of one size, from left to right. -/
def windows (terms : List Text) (size : Nat) : List (List Text) :=
  (List.range (terms.length + 1 - size)).map fun start => (terms.drop start).take size

/-- The keys that the expander looks up, in order. -/
def windowKeys (lookup : Dict Text (List Text)) (terms : List Text) : List Text :=
  terms.map lower ++ (List.range' 2 (maxKeyLen lookup - 1)).flatMap fun size =>
    (windows terms size).map (windowKey lower)

/-- The closure that `make_synonym_expander(groups, max_terms=max_terms)` returns. -/
def expander (groups : Dict Text (List Text)) (maxTerms : Nat) (terms : List Text) :
    List Text :=
  let lookup := buildSynonymMap lower groups
  (addKeys lookup maxTerms (addFresh [] terms) (windowKeys lower lookup terms)).1

variable {lower}

theorem mem_windows {terms window : List Text} {size : Nat} (positive : 0 < size) :
    window ∈ windows terms size ↔ window <:+: terms ∧ window.length = size := by
  unfold windows
  rw [List.mem_map]
  constructor
  · rintro ⟨start, inRange, rfl⟩
    rw [List.mem_range] at inRange
    constructor
    · exact (List.take_prefix size _).isInfix.trans (List.drop_suffix start terms).isInfix
    · rw [List.length_take, List.length_drop]
      omega
  · rintro ⟨⟨before, behind, rfl⟩, rfl⟩
    refine ⟨before.length, ?_, ?_⟩
    · rw [List.mem_range, List.length_append, List.length_append]
      omega
    · rw [List.append_assoc, List.drop_left, List.take_left]

theorem mem_windowKeys {lookup : Dict Text (List Text)} {terms : List Text} {key : Text} :
    key ∈ windowKeys lower lookup terms ↔ ∃ window, window <:+: terms ∧ window ≠ [] ∧
      (window.length = 1 ∨ window.length ≤ maxKeyLen lookup) ∧ key = windowKey lower window := by
  unfold windowKeys
  simp only [List.mem_append, List.mem_map, List.mem_flatMap, List.mem_range'_1]
  constructor
  · rintro (⟨term, member, rfl⟩ | ⟨size, inRange, window, isWindow, rfl⟩)
    · refine ⟨[term], ?_, List.cons_ne_nil _ _, .inl rfl, ?_⟩
      · rcases List.append_of_mem member with ⟨before, behind, rfl⟩
        exact ⟨before, behind, by simp⟩
      · simp [windowKey, List.intercalate]
    · rcases (mem_windows (by omega)).mp isWindow with ⟨part, rfl⟩
      exact ⟨window, part, List.ne_nil_of_length_pos (by omega), .inr (by omega), rfl⟩
  · rintro ⟨window, part, nonempty, short, rfl⟩
    by_cases single : window.length = 1
    · rcases List.length_eq_one_iff.mp single with ⟨term, rfl⟩
      exact .inl ⟨term, part.subset List.mem_cons_self, by simp [windowKey, List.intercalate]⟩
    · have positive := List.length_pos_iff.mpr nonempty
      exact .inr ⟨window.length, by omega, window, (mem_windows positive).mpr ⟨part, rfl⟩, rfl⟩

/-- No key of the lookup has more words than the longest windows. -/
theorem length_words_le_maxKeyLen {lookup : Dict Text (List Text)} {key : Text}
    (member : key ∈ lookup.items.map Prod.fst) :
    (words isSpace key).length ≤ maxKeyLen lookup := by
  rcases List.mem_map.mp member with ⟨item, stored, rfl⟩
  have counted : (words isSpace item.1).length ∈
      lookup.items.map fun item => (words isSpace item.1).length :=
    List.mem_map_of_mem stored
  unfold maxKeyLen
  cases longest : (lookup.items.map fun item => (words isSpace item.1).length).max? with
  | none =>
      rw [List.max?_eq_none_iff.mp longest] at counted
      cases counted
  | some bound => exact (List.max?_eq_some_iff.mp longest).2 _ counted

/-- What a query can be expanded by: a term of it or a synonym of some window of it. -/
def Reaches (lower : Text → Text) (groups : Dict Text (List Text)) (terms : List Text)
    (text : Text) : Prop :=
  text ∈ terms ∨ ∃ window, window <:+: terms ∧ window ≠ [] ∧
    Synonyms lower groups (windowKey lower window) text

/-- The sizes that the expander scans are enough for every window. -/
theorem mem_offered_iff {groups : Dict Text (List Text)} {terms : List Text}
    (areWords : ∀ term ∈ terms, IsWord (lower term)) {text : Text} :
    text ∈ (windowKeys lower (buildSynonymMap lower groups) terms).flatMap
        (synonymsOf (buildSynonymMap lower groups)) ↔
      ∃ window, window <:+: terms ∧ window ≠ [] ∧
        Synonyms lower groups (windowKey lower window) text := by
  rw [List.mem_flatMap]
  constructor
  · rintro ⟨key, asked, found⟩
    rcases mem_windowKeys.mp asked with ⟨window, part, nonempty, -, rfl⟩
    exact ⟨window, part, nonempty, mem_synonymsOf_buildSynonymMap.mp found⟩
  · rintro ⟨window, part, nonempty, synonyms⟩
    have found := mem_synonymsOf_buildSynonymMap.mpr synonyms
    have split : words isSpace (windowKey lower window) = window.map lower := by
      apply words_join
      intro word member
      rcases List.mem_map.mp member with ⟨term, inWindow, rfl⟩
      exact areWords term (part.subset inWindow)
    have fits := length_words_le_maxKeyLen (mem_keys_of_mem_synonymsOf found)
    rw [split, List.length_map] at fits
    exact ⟨_, mem_windowKeys.mpr ⟨window, part, nonempty, .inr fits, rfl⟩, found⟩

/-- The expander keeps the terms in front, adds nothing but synonyms, each once and up to the
bound, and misses no synonym of any window as long as there is room. -/
theorem expander_spec (groups : Dict Text (List Text)) (maxTerms : Nat) {terms : List Text}
    (areWords : ∀ term ∈ terms, IsWord (lower term)) :
    addFresh [] terms <+: expander lower groups maxTerms terms ∧
      (expander lower groups maxTerms terms).Nodup ∧
      (expander lower groups maxTerms terms).length ≤
        max maxTerms (addFresh [] terms).length ∧
      (∀ text ∈ expander lower groups maxTerms terms, Reaches lower groups terms text) ∧
      ((expander lower groups maxTerms terms).length < maxTerms →
        ∀ text, Reaches lower groups terms text →
          text ∈ expander lower groups maxTerms terms) := by
  have grows := grows_addKeys (buildSynonymMap lower groups) maxTerms (addFresh [] terms)
    (windowKeys lower (buildSynonymMap lower groups) terms)
  refine ⟨grows.keeps, grows.once (nodup_addFresh List.nodup_nil terms), grows.bounded, ?_, ?_⟩
  · intro text member
    rcases grows.offers text member with old | offered
    · exact .inl ((mem_addFresh.mp old).resolve_left List.not_mem_nil)
    · exact .inr ((mem_offered_iff areWords).mp offered)
  · intro room text reached
    rcases reached with isTerm | synonym
    · exact grows.keeps.subset (mem_addFresh.mpr (.inr isTerm))
    · have notFull := mt grows.full (Nat.not_le.mpr room)
      exact grows.complete (Bool.eq_true_of_not_eq_false notFull) text
        ((mem_offered_iff areWords).mpr synonym)

end Windows

/-! ## The expanded query -/

/-- A search whose expander is the one of the curated groups keeps the terms of the query in
front.  It adds nothing but synonyms of windows, each once and up to the bound, and misses no
synonym of any window as long as there is room. -/
theorem expandedTerms_synonyms {σ : Type} (engine : Engine σ) {groups : Dict Text (List Text)}
    {maxTerms : Nat}
    (installed : engine.queryExpander = some (expander engine.lower groups maxTerms))
    (keepsWords : ∀ word, IsWord word → IsWord (engine.lower word)) (query : Text) :
    primaryTerms query <+: engine.expandedTerms (primaryTerms query) ∧
      (engine.expandedTerms (primaryTerms query)).Nodup ∧
      (engine.expandedTerms (primaryTerms query)).length ≤
        max maxTerms (primaryTerms query).length ∧
      (∀ text ∈ engine.expandedTerms (primaryTerms query),
        Reaches engine.lower groups (primaryTerms query) text) ∧
      ((engine.expandedTerms (primaryTerms query)).length < maxTerms →
        ∀ text, Reaches engine.lower groups (primaryTerms query) text →
          text ∈ engine.expandedTerms (primaryTerms query)) := by
  have expanded : engine.expandedTerms (primaryTerms query) =
      expander engine.lower groups maxTerms (primaryTerms query) := by
    unfold Engine.expandedTerms
    rw [installed]
  have originals : addFresh [] (primaryTerms query) = primaryTerms query :=
    addFresh_of_nodup (nodup_primaryTerms query)
  have areWords : ∀ term ∈ primaryTerms query, IsWord (engine.lower term) :=
    fun term member => keepsWords term (isWord_of_mem_primaryTerms member)
  have spec := expander_spec groups maxTerms areWords
  rw [originals] at spec
  rw [expanded]
  exact spec

/-- An engine that expands by one curated group. -/
def curated : Engine Unit :=
  { Engine.silent with
    lower := List.map Char.toLower
    queryExpander := some (expander (List.map Char.toLower)
      ⟨[("row level security".toList, ["RLS".toList])], List.nodup_singleton _⟩ 32) }

theorem isWord_map_toLower {word : Text} (isWord : IsWord word) :
    IsWord (word.map Char.toLower) := by
  constructor
  · exact mt List.map_eq_nil_iff.mp isWord.1
  · intro c member
    rcases List.mem_map.mp member with ⟨d, inWord, rfl⟩
    rcases toLower_cases d with ⟨same, -⟩ | ⟨range, shifted⟩
    · rw [same]
      exact isWord.2 d inWord
    · unfold isSpace
      rw [shifted]
      simp only [List.mem_cons, List.not_mem_nil, or_false, decide_eq_false_iff_not]
      omega

/-- The long form in a query brings the acronym. -/
theorem expandedTerms_synonyms_rls :
    primaryTerms "Row level security".toList =
        ["Row".toList, "level".toList, "security".toList] ∧
      "rls".toList ∈ curated.expandedTerms (primaryTerms "Row level security".toList) := by
  have split : primaryTerms "Row level security".toList =
      ["Row".toList, "level".toList, "security".toList] := by decide
  have spec := expandedTerms_synonyms curated rfl (fun _ => isWord_map_toLower)
    "Row level security".toList
  refine ⟨split, spec.2.2.2.2 (by decide) _ (.inr ⟨_, List.infix_refl _, ?_, ?_⟩)⟩
  · rw [split]
    exact List.cons_ne_nil _ _
  · exact ⟨_, List.mem_singleton_self _, by decide, by decide, by decide⟩

end DataOlympus.Expansion
