import DataOlympus.Select.Best
import DataOlympus.Select.Tally
import DataOlympus.Text.Lines
import Mathlib.Algebra.Order.Field.Rat
import Mathlib.Data.Char
import Mathlib.Data.Finset.Sort
import Mathlib.Data.List.Lex
import Mathlib.Data.Prod.Lex

/-!
# The table of related terms

Terms are related when they share documents more often than chance.  The build counts the
pairs of terms under a memory bound: it leaves out rare terms, writes the counts out when
there are too many, and cuts the partners of a term back to the best as it goes.  The table
is the one that plain counting gives.
-/

namespace DataOlympus

open Lines Select Python

/-- A partner of a term: the ratio under the logarithm of the PMI, the number of shared
documents and the other term. -/
structure Partner where
  ratio : ℚ
  count : Nat
  other : Text

/-- The sort key `(-pmi, -count, other)`. -/
def Partner.key (partner : Partner) : ℚ ×ₗ Int ×ₗ Text :=
  toLex (-partner.ratio, toLex (-(partner.count : Int), partner.other))

theorem Partner.key_injective : Partner.key.Injective := by
  rintro ⟨ratio, count, other⟩ ⟨ratio', count', other'⟩ same
  simp only [Partner.key, EmbeddingLike.apply_eq_iff_eq, Prod.mk.injEq, neg_inj,
    Nat.cast_inj] at same
  rcases same with ⟨rfl, rfl, rfl⟩
  rfl

/-- The parameters of a build. -/
structure CooccurrenceOptions where
  k : Int
  minCount : Int
  /-- `pmi >= min_pmi`, as a condition on the ratio under the logarithm. -/
  clearsMinPmi : ℚ → Bool
  minDocs : Int
  maxDocTokens : Int
  maxPairsInMemory : Int

/-- The order of `_capped_doc_tokens`: the longest tokens first. -/
def lengthKey (token : Text) : Int ×ₗ Text :=
  toLex (-(token.length : Int), token)

/-- `_capped_doc_tokens(tokens, max_doc_tokens)`. -/
def cappedDocTokens (tokens : Finset Text) (maxDocTokens : Int) : List Text :=
  let ordered := tokens.sort
  if 0 < maxDocTokens ∧ maxDocTokens < ordered.length then
    Select.ordered id (best lengthKey maxDocTokens.toNat ordered)
  else ordered

/-- The key of each pair of a row of ids. -/
def pairKeys (vocabulary : Nat) : List Nat → List Nat
  | [] => []
  | a :: rest => rest.map (fun b => a * vocabulary + b) ++ pairKeys vocabulary rest

/-- The ids of the counted terms of a document. -/
def row (counted : List Text) (tokens : List Text) : List Nat :=
  Select.ordered id (tokens.filterMap fun token => counted.idxOf? token)

/-- The pairs of all documents, with a checkpoint after each. -/
def countPairs (counted : List Text) (maxPairsInMemory : Int) (capped : List (List Text)) :
    Tally Nat :=
  capped.foldl
    (fun pairs tokens =>
      ((pairKeys counted.length (row counted tokens)).foldl Tally.add pairs).checkpoint
        maxPairsInMemory)
    .empty

/-- The partners found so far, by term. -/
abbrev Candidates : Type :=
  Dict Text (List Partner)

/-- `offer(term, entry)`. -/
def Candidates.offer (k : Nat) (candidates : Candidates) (offered : Text × Partner) :
    Candidates :=
  candidates.set offered.1
    (Select.offer Partner.key k (max (4 * k) (2 * k))
      ((candidates.get offered.1).getD []) offered.2)

/-- The two entries of a pair that clears the threshold. -/
def offersOf (options : CooccurrenceOptions) (documents : Nat) (termCounts : Tally Text)
    (counted : List Text) (item : Nat × Nat) : List (Text × Partner) :=
  let a := counted.getD (item.1 / counted.length) []
  let b := counted.getD (item.1 % counted.length) []
  let ratio : ℚ := (item.2 * documents) / (termCounts.total a * termCounts.total b)
  if options.clearsMinPmi ratio then [(a, ⟨ratio, item.2, b⟩), (b, ⟨ratio, item.2, a⟩)]
  else []

/-- The number of documents of each term. -/
def termCountsOf (capped : List (List Text)) : Tally Text :=
  capped.flatten.foldl Tally.add .empty

/-- The terms whose pairs are counted, in order. -/
def countedTerms (minCount : Int) (capped : List (List Text)) : List Text :=
  Select.ordered id (((termCountsOf capped).items minCount).map Prod.fst)

/-- `build_cooccurrence_table(doc_token_sets, …)`. -/
def buildCooccurrenceTable (options : CooccurrenceOptions) (docTokenSets : List (Finset Text)) :
    Dict Text (List Text) :=
  let materialised := docTokenSets.filter fun tokens => tokens ≠ ∅
  let documents := materialised.length
  if documents < max 2 options.minDocs ∨ options.k ≤ 0 then .empty
  else
    let capped := materialised.map fun tokens => cappedDocTokens tokens options.maxDocTokens
    let counted := countedTerms options.minCount capped
    if counted.length < 2 then .empty
    else
      let pairs := countPairs counted options.maxPairsInMemory capped
      let candidates :=
        (pairs.items options.minCount).foldl
          (fun candidates item =>
            (offersOf options documents (termCountsOf capped) counted item).foldl
              (Candidates.offer options.k.toNat) candidates)
          Dict.empty
      candidates.mapValues fun partners =>
        (best Partner.key options.k.toNat partners).map Partner.other

/-! ## Plain counting -/

/-- The number of documents that have a term. -/
def docsWith (docs : List (Finset Text)) (term : Text) : Nat :=
  docs.countP fun tokens => term ∈ tokens

/-- The number of documents that have two terms. -/
def docsWithBoth (docs : List (Finset Text)) (first second : Text) : Nat :=
  docs.countP fun tokens => first ∈ tokens ∧ second ∈ tokens

/-- A term as a partner of another, if they share documents, and enough of them. -/
def partnerOf (options : CooccurrenceOptions) (docs : List (Finset Text)) (term other : Text) :
    Option Partner :=
  let count := docsWithBoth docs term other
  let ratio : ℚ := (count * docs.length) / (docsWith docs term * docsWith docs other)
  if 0 < count ∧ options.minCount ≤ count ∧ options.clearsMinPmi ratio then
    some ⟨ratio, count, other⟩
  else none

/-- All partners of a term. -/
def partners (options : CooccurrenceOptions) (docs : List (Finset Text)) (term : Text) :
    List Partner :=
  ((docs.foldr (· ∪ ·) ∅).erase term).sort.filterMap (partnerOf options docs term)

/-- The related terms of a term by plain counting. -/
def relatedTerms (options : CooccurrenceOptions) (docs : List (Finset Text)) (term : Text) :
    Option (List Text) :=
  match partners options docs term with
  | [] => none
  | found => some ((best Partner.key options.k.toNat found).map Partner.other)

/-- The documents that a build counts over: those with tokens, trimmed. -/
def trimmedDocs (options : CooccurrenceOptions) (docTokenSets : List (Finset Text)) :
    List (Finset Text) :=
  (docTokenSets.filter fun tokens => tokens ≠ ∅).map fun tokens =>
    (cappedDocTokens tokens options.maxDocTokens).toFinset

/-! ## Ids and pair keys -/

theorem nodup_cappedDocTokens (tokens : Finset Text) (maxDocTokens : Int) :
    (cappedDocTokens tokens maxDocTokens).Nodup := by
  unfold cappedDocTokens
  simp only
  split
  · have kept : (best lengthKey maxDocTokens.toNat tokens.sort).Nodup :=
      ((perm_ordered _).nodup_iff.mpr (Finset.sort_nodup tokens _)).sublist
        (List.take_sublist _ _)
    exact (perm_ordered _).nodup_iff.mpr kept
  · exact Finset.sort_nodup tokens _

/-- In a list without repetition, the id of a term is its place. -/
theorem idxOf?_eq_some_iff {counted : List Text} (once : counted.Nodup) {term : Text}
    {id : Nat} : counted.idxOf? term = some id ↔ counted[id]? = some term := by
  rw [List.idxOf?_eq_some_iff, List.getElem?_eq_some_iff]
  constructor
  · rintro ⟨short, here, -⟩
    exact ⟨short, here⟩
  · rintro ⟨short, here⟩
    refine ⟨short, here, ?_⟩
    intro earlier before same
    have places := (List.Nodup.getElem_inj_iff once).mp (same.trans here.symm)
    exact absurd places (ne_of_lt before)

theorem mem_row {counted tokens : List Text} (once : counted.Nodup) {id : Nat} :
    id ∈ row counted tokens ↔ ∃ term ∈ tokens, counted[id]? = some term := by
  unfold row
  rw [(perm_ordered _).mem_iff, List.mem_filterMap]
  simp only [idxOf?_eq_some_iff once]

/-- A row of ids ascends. -/
theorem pairwise_row {counted tokens : List Text} (once : counted.Nodup)
    (distinct : tokens.Nodup) : (row counted tokens).Pairwise (· < ·) := by
  have unrepeated : (row counted tokens).Nodup := by
    apply (perm_ordered _).nodup_iff.mpr
    apply List.Nodup.filterMap _ distinct
    intro first second id here there
    rw [Option.mem_def, idxOf?_eq_some_iff once] at here there
    exact Option.some.inj (here.symm.trans there)
  have ascending : (row counted tokens).Pairwise (· ≤ ·) := pairwise_ordered _
  exact (ascending.and unrepeated).imp fun both => lt_of_le_of_ne both.1 both.2

/-- The pair keys of an ascending row. -/
theorem mem_pairKeys {vocabulary key : Nat} {ids : List Nat} (ascending : ids.Pairwise (· < ·)) :
    key ∈ pairKeys vocabulary ids ↔
      ∃ a ∈ ids, ∃ b ∈ ids, a < b ∧ key = a * vocabulary + b := by
  induction ids with
  | nil => simp [pairKeys]
  | cons first rest ih =>
      rw [List.pairwise_cons] at ascending
      rw [pairKeys, List.mem_append, List.mem_map, ih ascending.2]
      constructor
      · rintro (⟨b, later, rfl⟩ | ⟨a, here, b, there, less, rfl⟩)
        · exact ⟨first, List.mem_cons_self, b, List.mem_cons_of_mem _ later,
            ascending.1 b later, rfl⟩
        · exact ⟨a, List.mem_cons_of_mem _ here, b, List.mem_cons_of_mem _ there, less, rfl⟩
      · rintro ⟨a, here, b, there, less, rfl⟩
        rcases List.mem_cons.mp there with rfl | laterB
        · rcases List.mem_cons.mp here with rfl | laterA
          · exact absurd less (lt_irrefl _)
          · exact absurd less (lt_asymm (ascending.1 a laterA))
        · rcases List.mem_cons.mp here with rfl | laterA
          · exact .inl ⟨b, laterB, rfl⟩
          · exact .inr ⟨a, laterA, b, laterB, less, rfl⟩

theorem pairKey_div {vocabulary a b : Nat} (small : b < vocabulary) :
    (a * vocabulary + b) / vocabulary = a := by
  rw [Nat.mul_comm, Nat.mul_add_div (Nat.zero_lt_of_lt small), Nat.div_eq_of_lt small,
    Nat.add_zero]

theorem pairKey_mod {vocabulary a b : Nat} (small : b < vocabulary) :
    (a * vocabulary + b) % vocabulary = b := by
  rw [Nat.mul_comm, Nat.mul_add_mod, Nat.mod_eq_of_lt small]

theorem nodup_pairKeys {vocabulary : Nat} {ids : List Nat} (ascending : ids.Pairwise (· < ·))
    (small : ∀ id ∈ ids, id < vocabulary) : (pairKeys vocabulary ids).Nodup := by
  induction ids with
  | nil => exact List.nodup_nil
  | cons first rest ih =>
      have later := List.pairwise_cons.mp ascending
      have smaller : ∀ id ∈ rest, id < vocabulary := fun id member =>
        small id (List.mem_cons_of_mem _ member)
      rw [pairKeys, List.nodup_append]
      refine ⟨?_, ih later.2 smaller, ?_⟩
      · apply List.Nodup.map _ (later.2.imp fun less => ne_of_lt less)
        intro b b' same
        exact Nat.add_left_cancel same
      · intro key here other there same
        subst same
        obtain ⟨b, member, rfl⟩ := List.mem_map.mp here
        obtain ⟨a, memberA, b', memberB, -, same⟩ := (mem_pairKeys later.2).mp there
        -- the first ids of the two keys differ
        have firsts := congrArg (· / vocabulary) same
        simp only [pairKey_div (smaller b member), pairKey_div (smaller b' memberB)] at firsts
        exact absurd firsts (ne_of_lt (later.1 a memberA))

/-- The pair keys of a document do not repeat. -/
theorem nodup_pairKeys_row {counted tokens : List Text} (once : counted.Nodup)
    (distinct : tokens.Nodup) : (pairKeys counted.length (row counted tokens)).Nodup := by
  apply nodup_pairKeys (pairwise_row once distinct)
  intro id present
  obtain ⟨term, -, found⟩ := (mem_row once).mp present
  exact (List.getElem?_eq_some_iff.mp found).1

/-! ## What is counted -/

/-- In lists without repetition, occurrences are lists. -/
theorem count_flatten {α : Type} [DecidableEq α] {lists : List (List α)}
    (distinct : ∀ items ∈ lists, items.Nodup) (item : α) :
    lists.flatten.count item = lists.countP fun items => item ∈ items := by
  induction lists with
  | nil => rfl
  | cons first rest ih =>
      rw [List.forall_mem_cons] at distinct
      rw [List.flatten_cons, List.count_append, ih distinct.2, List.countP_cons,
        distinct.1.count, Nat.add_comm]
      simp only [decide_eq_true_iff]

/-- Each document adds one to the total of each of its pairs, whenever the counts are written
out. -/
theorem total_countPairs (counted : List Text) (maxPairsInMemory : Int)
    {capped : List (List Text)}
    (distinct : ∀ tokens ∈ capped, (pairKeys counted.length (row counted tokens)).Nodup)
    (key : Nat) :
    (countPairs counted maxPairsInMemory capped).total key =
      capped.countP fun tokens => key ∈ pairKeys counted.length (row counted tokens) := by
  unfold countPairs
  induction capped using List.reverseRecOn with
  | nil => rfl
  | append_singleton before last ih =>
      have earlier := ih fun tokens member => distinct tokens (List.mem_append_left _ member)
      have here := distinct last (List.mem_append_right _ List.mem_cons_self)
      rw [List.foldl_append, List.foldl_cons, List.foldl_nil, Tally.total_checkpoint,
        Tally.total_foldl_add, earlier, here.count, List.countP_append, List.countP_cons]
      simp only [List.countP_nil, decide_eq_true_iff, Nat.zero_add]

theorem positive_countPairs (counted : List Text) (maxPairsInMemory : Int)
    (capped : List (List Text)) :
    (countPairs counted maxPairsInMemory capped).Positive := by
  unfold countPairs
  induction capped using List.reverseRecOn with
  | nil => exact Tally.positive_empty
  | append_singleton before last ih =>
      rw [List.foldl_append]
      exact Tally.positive_checkpoint _ (Tally.positive_foldl_add _ ih)

theorem docsWithBoth_comm (docs : List (Finset Text)) (first second : Text) :
    docsWithBoth docs first second = docsWithBoth docs second first := by
  unfold docsWithBoth
  simp only [and_comm]

theorem docsWithBoth_le (docs : List (Finset Text)) (first second : Text) :
    docsWithBoth docs first second ≤ docsWith docs first := by
  unfold docsWithBoth docsWith
  apply List.countP_mono_left
  intro tokens _ both
  simp only [decide_eq_true_iff] at both ⊢
  exact both.1

section Counted

variable {options : CooccurrenceOptions} {capped : List (List Text)} {counted : List Text}

/-- A pair of ids has the total of the documents with both terms. -/
theorem total_pairKey (once : counted.Nodup) (maxPairsInMemory : Int)
    (distinct : ∀ tokens ∈ capped, tokens.Nodup) {a b : Nat} {first second : Text}
    (less : a < b) (here : counted[a]? = some first) (there : counted[b]? = some second) :
    (countPairs counted maxPairsInMemory capped).total (a * counted.length + b) =
      docsWithBoth (capped.map List.toFinset) first second := by
  have shortB : b < counted.length := (List.getElem?_eq_some_iff.mp there).1
  rw [total_countPairs]
  · unfold docsWithBoth
    rw [List.countP_map]
    apply List.countP_congr
    intro tokens member
    have ascending := pairwise_row once (distinct tokens member)
    simp only [Function.comp_apply, List.mem_toFinset, decide_eq_true_iff,
      mem_pairKeys ascending, mem_row once]
    constructor
    · rintro ⟨a', ⟨term, termHere, foundA⟩, b', ⟨other, otherHere, foundB⟩, -, same⟩
      have shortB' := (List.getElem?_eq_some_iff.mp foundB).1
      have sameA := congrArg (· / counted.length) same
      have sameB := congrArg (· % counted.length) same
      simp only [pairKey_div shortB, pairKey_div shortB'] at sameA
      simp only [pairKey_mod shortB, pairKey_mod shortB'] at sameB
      subst sameA sameB
      rw [here] at foundA
      rw [there] at foundB
      cases foundA
      cases foundB
      exact ⟨termHere, otherHere⟩
    · rintro ⟨firstHere, secondHere⟩
      exact ⟨a, ⟨first, firstHere, here⟩, b, ⟨second, secondHere, there⟩, less, rfl⟩
  · intro tokens member
    exact nodup_pairKeys_row once (distinct tokens member)

/-- Every counted key is of a pair of ids. -/
theorem exists_pair_of_total_pos (once : counted.Nodup) (maxPairsInMemory : Int)
    (distinct : ∀ tokens ∈ capped, tokens.Nodup) {key : Nat}
    (seen : 0 < (countPairs counted maxPairsInMemory capped).total key) :
    ∃ a b first second, a < b ∧ counted[a]? = some first ∧ counted[b]? = some second ∧
      key = a * counted.length + b := by
  rw [total_countPairs, List.countP_pos_iff] at seen
  · obtain ⟨tokens, member, here⟩ := seen
    have ascending := pairwise_row once (distinct tokens member)
    obtain ⟨a, inA, b, inB, less, rfl⟩ := (mem_pairKeys ascending).mp (of_decide_eq_true here)
    obtain ⟨first, -, foundA⟩ := (mem_row once).mp inA
    obtain ⟨second, -, foundB⟩ := (mem_row once).mp inB
    exact ⟨a, b, first, second, less, foundA, foundB, rfl⟩
  · intro tokens member
    exact nodup_pairKeys_row once (distinct tokens member)

end Counted

/-! ## The partners of a term -/

theorem partnerOf_eq_some_iff {options : CooccurrenceOptions} {docs : List (Finset Text)}
    {term other : Text} {partner : Partner} :
    partnerOf options docs term other = some partner ↔
      partner = ⟨(docsWithBoth docs term other * docs.length) /
          (docsWith docs term * docsWith docs other), docsWithBoth docs term other, other⟩ ∧
        0 < partner.count ∧ options.minCount ≤ partner.count ∧
          options.clearsMinPmi partner.ratio := by
  unfold partnerOf
  simp only [Option.ite_none_right_eq_some, Option.some.injEq]
  constructor
  · rintro ⟨enough, rfl⟩
    exact ⟨rfl, enough⟩
  · rintro ⟨rfl, enough⟩
    exact ⟨enough, rfl⟩

/-- Two terms with a common document are in the vocabulary. -/
theorem mem_vocabulary {docs : List (Finset Text)} {term other : Text}
    (shared : 0 < docsWithBoth docs term other) : other ∈ docs.foldr (· ∪ ·) ∅ := by
  unfold docsWithBoth at shared
  rw [List.countP_pos_iff] at shared
  obtain ⟨tokens, member, both⟩ := shared
  have present := (of_decide_eq_true both).2
  clear both
  induction docs with
  | nil => cases member
  | cons first rest ih =>
      rw [List.foldr_cons, Finset.mem_union]
      rcases List.mem_cons.mp member with rfl | later
      · exact .inl present
      · exact .inr (ih later)

theorem mem_partners {options : CooccurrenceOptions} {docs : List (Finset Text)} {term : Text}
    {partner : Partner} :
    partner ∈ partners options docs term ↔
      partner.other ≠ term ∧ partnerOf options docs term partner.other = some partner := by
  unfold partners
  rw [List.mem_filterMap]
  constructor
  · rintro ⟨other, member, found⟩
    have same : partner.other = other :=
      congrArg Partner.other (partnerOf_eq_some_iff.mp found).1
    rw [Finset.mem_sort, Finset.mem_erase] at member
    rw [same]
    exact ⟨member.1, found⟩
  · rintro ⟨different, found⟩
    refine ⟨partner.other, ?_, found⟩
    rcases partnerOf_eq_some_iff.mp found with ⟨made, shared, -⟩
    rw [made] at shared
    rw [Finset.mem_sort, Finset.mem_erase]
    exact ⟨different, mem_vocabulary shared⟩

theorem nodup_partners (options : CooccurrenceOptions) (docs : List (Finset Text))
    (term : Text) : (partners options docs term).Nodup := by
  apply List.Nodup.filterMap _ (Finset.sort_nodup _ _)
  intro first second partner here there
  have one := congrArg Partner.other (partnerOf_eq_some_iff.mp here).1
  have two := congrArg Partner.other (partnerOf_eq_some_iff.mp there).1
  exact one.symm.trans two

/-! ## Offers -/

/-- What was offered to a term. -/
def offeredTo (term : Text) (offers : List (Text × Partner)) : List Partner :=
  offers.filterMap fun offered => if offered.1 = term then some offered.2 else none

theorem mem_offeredTo {term : Text} {offers : List (Text × Partner)} {partner : Partner} :
    partner ∈ offeredTo term offers ↔ (term, partner) ∈ offers := by
  unfold offeredTo
  simp only [List.mem_filterMap, Option.ite_none_right_eq_some, Option.some.injEq]
  constructor
  · rintro ⟨⟨other, found⟩, member, rfl, rfl⟩
    exact member
  · intro member
    exact ⟨_, member, rfl, rfl⟩

theorem nodup_offeredTo {offers : List (Text × Partner)} (once : offers.Nodup) (term : Text) :
    (offeredTo term offers).Nodup := by
  apply once.filterMap
  rintro ⟨first, partner⟩ ⟨second, other⟩ found here there
  simp only [Option.mem_def, Option.ite_none_right_eq_some, Option.some.injEq] at here there
  rw [here.1, there.1, here.2, there.2]

/-- The candidates of a term are what its offers leave. -/
theorem get_foldl_offer (k : Nat) (offers : List (Text × Partner)) (term : Text) :
    (offers.foldl (Candidates.offer k) Dict.empty).get term =
      match offeredTo term offers with
      | [] => none
      | found => some (offerAll Partner.key k (max (4 * k) (2 * k)) found) := by
  induction offers using List.reverseRecOn with
  | nil => rfl
  | append_singleton before last ih =>
      rw [List.foldl_append, List.foldl_cons, List.foldl_nil, Candidates.offer]
      have split : offeredTo term (before ++ [last]) =
          offeredTo term before ++ if last.1 = term then [last.2] else [] := by
        unfold offeredTo
        rw [List.filterMap_append]
        congr 1
        by_cases here : last.1 = term
        · simp [here]
        · simp [here]
      by_cases here : last.1 = term
      · subst here
        rw [Dict.get_set, ih, split, if_pos rfl]
        cases found : offeredTo last.1 before with
        | nil => rfl
        | cons first rest =>
            simp only [offerAll, Option.getD_some, List.cons_append, List.foldl_cons,
              List.foldl_append, List.foldl_nil]
      · rw [Dict.get_set_of_ne _ _ (Ne.symm here), ih, split, if_neg here, List.append_nil]

section Build

variable {options : CooccurrenceOptions} {capped : List (List Text)}

theorem total_termCountsOf (distinct : ∀ tokens ∈ capped, tokens.Nodup) (term : Text) :
    (termCountsOf capped).total term = docsWith (capped.map List.toFinset) term := by
  rw [termCountsOf, Tally.total_foldl_add, Tally.total_empty, count_flatten distinct,
    Nat.zero_add, docsWith, List.countP_map]
  apply List.countP_congr
  intro tokens _
  simp only [Function.comp_apply, List.mem_toFinset, decide_eq_true_iff]

/-- A term is counted if enough documents have it. -/
theorem mem_countedTerms (distinct : ∀ tokens ∈ capped, tokens.Nodup) {minCount : Int}
    {term : Text} :
    term ∈ countedTerms minCount capped ↔
      0 < docsWith (capped.map List.toFinset) term ∧
        minCount ≤ docsWith (capped.map List.toFinset) term := by
  have positive : (termCountsOf capped).Positive :=
    Tally.positive_foldl_add _ Tally.positive_empty
  rw [countedTerms, (perm_ordered _).mem_iff, List.mem_map]
  constructor
  · rintro ⟨⟨same, count⟩, member, rfl⟩
    rw [Tally.mem_items positive, total_termCountsOf distinct] at member
    rcases member with ⟨rfl, enough⟩
    exact enough
  · intro enough
    refine ⟨(term, docsWith (capped.map List.toFinset) term), ?_, rfl⟩
    rw [Tally.mem_items positive, total_termCountsOf distinct]
    exact ⟨rfl, enough⟩

theorem nodup_countedTerms (minCount : Int) (capped : List (List Text)) :
    (countedTerms minCount capped).Nodup :=
  (perm_ordered _).nodup_iff.mpr (Tally.nodup_items _ minCount)

/-- The place of a term determines it, and conversely. -/
theorem place_unique {counted : List Text} (once : counted.Nodup) {a b : Nat} {term : Text}
    (here : counted[a]? = some term) (there : counted[b]? = some term) : a = b := by
  rw [← idxOf?_eq_some_iff once] at here there
  exact Option.some.inj (here.symm.trans there)

/-- The pairs that the build goes through. -/
def builtPairs (options : CooccurrenceOptions) (capped : List (List Text)) :
    List (Nat × Nat) :=
  (countPairs (countedTerms options.minCount capped) options.maxPairsInMemory capped).items
    options.minCount

/-- The offers that the build makes. -/
def builtOffers (options : CooccurrenceOptions) (capped : List (List Text)) :
    List (Text × Partner) :=
  (builtPairs options capped).flatMap
    (offersOf options capped.length (termCountsOf capped)
      (countedTerms options.minCount capped))

/-- The ratio of two terms. -/
theorem offersOf_pairKey (distinct : ∀ tokens ∈ capped, tokens.Nodup) {counted : List Text}
    {a b count : Nat} {first second : Text} (here : counted[a]? = some first)
    (there : counted[b]? = some second) :
    offersOf options capped.length (termCountsOf capped) counted
        (a * counted.length + b, count) =
      let docs := capped.map List.toFinset
      let ratio : ℚ := (count * docs.length) / (docsWith docs first * docsWith docs second)
      if options.clearsMinPmi ratio then
        [(first, ⟨ratio, count, second⟩), (second, ⟨ratio, count, first⟩)]
      else [] := by
  have short := (List.getElem?_eq_some_iff.mp there).1
  simp only [offersOf, pairKey_div short, pairKey_mod short, List.getD_eq_getElem?_getD, here,
    there, Option.getD_some, total_termCountsOf distinct, List.length_map]

/-- The pairs are those of two counted terms with enough common documents. -/
theorem mem_builtPairs (distinct : ∀ tokens ∈ capped, tokens.Nodup) {key count : Nat} :
    (key, count) ∈ builtPairs options capped ↔
      ∃ a b first second, a < b ∧
        (countedTerms options.minCount capped)[a]? = some first ∧
        (countedTerms options.minCount capped)[b]? = some second ∧
        key = a * (countedTerms options.minCount capped).length + b ∧
        count = docsWithBoth (capped.map List.toFinset) first second ∧
        0 < count ∧ options.minCount ≤ count := by
  have once := nodup_countedTerms options.minCount capped
  rw [builtPairs, Tally.mem_items (positive_countPairs _ _ _)]
  constructor
  · rintro ⟨rfl, seen, enough⟩
    obtain ⟨a, b, first, second, less, here, there, rfl⟩ :=
      exists_pair_of_total_pos once options.maxPairsInMemory distinct seen
    exact ⟨a, b, first, second, less, here, there, rfl,
      total_pairKey once options.maxPairsInMemory distinct less here there, seen, enough⟩
  · rintro ⟨a, b, first, second, less, here, there, rfl, rfl, enough⟩
    exact ⟨(total_pairKey once options.maxPairsInMemory distinct less here there).symm, enough⟩

/-- The build offers a term exactly its partners. -/
theorem mem_builtOffers (distinct : ∀ tokens ∈ capped, tokens.Nodup) {term : Text}
    {partner : Partner} :
    (term, partner) ∈ builtOffers options capped ↔
      partner ∈ partners options (capped.map List.toFinset) term := by
  have once := nodup_countedTerms options.minCount capped
  rw [builtOffers, List.mem_flatMap, mem_partners]
  constructor
  · rintro ⟨⟨key, count⟩, paired, offered⟩
    obtain ⟨a, b, first, second, less, here, there, rfl, rfl, enough⟩ :=
      (mem_builtPairs distinct).mp paired
    have different : first ≠ second := by
      rintro rfl
      exact absurd (place_unique once here there) (ne_of_lt less)
    rw [offersOf_pairKey distinct here there] at offered
    simp only [List.mem_ite_nil_right, List.mem_cons, Prod.mk.injEq, List.not_mem_nil,
      or_false] at offered
    rcases offered with ⟨clears, ⟨rfl, rfl⟩ | ⟨rfl, rfl⟩⟩
    · exact ⟨different.symm, partnerOf_eq_some_iff.mpr ⟨rfl, enough.1, enough.2, clears⟩⟩
    · refine ⟨different, partnerOf_eq_some_iff.mpr ⟨?_, enough.1, enough.2, clears⟩⟩
      rw [docsWithBoth_comm _ term first,
        mul_comm (docsWith (capped.map List.toFinset) term : ℚ)]
  · rintro ⟨different, found⟩
    obtain ⟨made, shared, enough, clears⟩ := partnerOf_eq_some_iff.mp found
    obtain ⟨ratio, count, other⟩ := partner
    dsimp only at made shared enough clears different
    cases made
    have counted : ∀ {first second : Text},
        0 < docsWithBoth (capped.map List.toFinset) first second →
        options.minCount ≤ docsWithBoth (capped.map List.toFinset) first second →
          ∃ place : Nat, (countedTerms options.minCount capped)[place]? = some first := by
      intro first second some many
      have least := docsWithBoth_le (capped.map List.toFinset) first second
      have member : first ∈ countedTerms options.minCount capped := by
        rw [mem_countedTerms distinct]
        omega
      exact List.mem_iff_getElem?.mp member
    obtain ⟨a, here⟩ := counted shared enough
    rw [docsWithBoth_comm] at shared enough
    obtain ⟨b, there⟩ := counted shared enough
    have apart : a ≠ b := by
      rintro rfl
      exact different (Option.some.inj (there.symm.trans here))
    rcases lt_or_gt_of_ne apart with less | less
    · rw [docsWithBoth_comm] at shared enough
      refine ⟨_, (mem_builtPairs distinct).mpr
        ⟨a, b, term, other, less, here, there, rfl, rfl, shared, enough⟩, ?_⟩
      rw [offersOf_pairKey distinct here there]
      simp only [clears, if_true]
      exact List.mem_cons_self
    · refine ⟨_, (mem_builtPairs distinct).mpr
        ⟨b, a, other, term, less, there, here, rfl, rfl, shared, enough⟩, ?_⟩
      rw [offersOf_pairKey distinct there here]
      rw [docsWithBoth_comm _ term other,
        mul_comm (docsWith (capped.map List.toFinset) term : ℚ)] at clears ⊢
      simp only [clears, if_true]
      exact List.mem_cons_of_mem _ List.mem_cons_self

/-- No offer is made twice. -/
theorem nodup_builtOffers (distinct : ∀ tokens ∈ capped, tokens.Nodup) :
    (builtOffers options capped).Nodup := by
  have once := nodup_countedTerms options.minCount capped
  have keys : (builtPairs options capped).Pairwise fun first second => first.1 ≠ second.1 :=
    List.pairwise_map.mp (Tally.nodup_items _ options.minCount)
  apply List.nodup_flatMap.mpr
  constructor
  · rintro ⟨key, count⟩ paired
    obtain ⟨a, b, first, second, less, here, there, rfl, -⟩ := (mem_builtPairs distinct).mp paired
    rw [offersOf_pairKey distinct here there]
    simp only
    split
    · rw [List.nodup_cons, List.mem_singleton, Prod.mk.injEq]
      refine ⟨?_, List.nodup_singleton _⟩
      rintro ⟨rfl, -⟩
      exact absurd (place_unique once here there) (ne_of_lt less)
    · exact List.nodup_nil
  · apply List.Pairwise.imp_of_mem _ keys
    rintro ⟨key, count⟩ ⟨key', count'⟩ paired paired' different
    rintro ⟨term, partner⟩ offered offered'
    obtain ⟨a, b, first, second, less, here, there, rfl, -⟩ := (mem_builtPairs distinct).mp paired
    obtain ⟨a', b', first', second', less', here', there', rfl, -⟩ :=
      (mem_builtPairs distinct).mp paired'
    rw [offersOf_pairKey distinct here there] at offered
    rw [offersOf_pairKey distinct here' there'] at offered'
    simp only [List.mem_ite_nil_right, List.mem_cons, Prod.mk.injEq, List.not_mem_nil,
      or_false] at offered offered'
    -- a term and its partner determine the ids of the pair, up to their order
    rcases offered with ⟨-, ⟨rfl, rfl⟩ | ⟨rfl, rfl⟩⟩
    · rcases offered' with ⟨-, ⟨rfl, same⟩ | ⟨rfl, same⟩⟩
      · cases congrArg Partner.other same
        rw [place_unique once here here', place_unique once there there'] at different
        exact different rfl
      · cases congrArg Partner.other same
        rw [place_unique once here there', place_unique once there here'] at less
        exact absurd less (lt_asymm less')
    · rcases offered' with ⟨-, ⟨rfl, same⟩ | ⟨rfl, same⟩⟩
      · cases congrArg Partner.other same
        rw [place_unique once here there', place_unique once there here'] at less
        exact absurd less (lt_asymm less')
      · cases congrArg Partner.other same
        rw [place_unique once here here', place_unique once there there'] at different
        exact different rfl

/-- What is offered to a term are its partners, in some order. -/
theorem perm_offeredTo (distinct : ∀ tokens ∈ capped, tokens.Nodup) (term : Text) :
    (offeredTo term (builtOffers options capped)).Perm
      (partners options (capped.map List.toFinset) term) := by
  apply (List.perm_ext_iff_of_nodup (nodup_offeredTo (nodup_builtOffers distinct) term)
    (nodup_partners _ _ _)).mpr
  intro partner
  rw [mem_offeredTo, mem_builtOffers distinct]

/-- With fewer than two counted terms there are no partners. -/
theorem partners_eq_nil_of_few (distinct : ∀ tokens ∈ capped, tokens.Nodup)
    (few : (countedTerms options.minCount capped).length < 2) (term : Text) :
    partners options (capped.map List.toFinset) term = [] := by
  apply List.eq_nil_iff_forall_not_mem.mpr
  intro partner member
  rw [← mem_builtOffers distinct, builtOffers, List.mem_flatMap] at member
  obtain ⟨⟨key, count⟩, paired, -⟩ := member
  obtain ⟨a, b, first, second, less, -, there, -⟩ := (mem_builtPairs distinct).mp paired
  have short := (List.getElem?_eq_some_iff.mp there).1
  omega

end Build

/-- Above the corpus floor, the table relates the terms that plain counting over the trimmed
documents relates; below it, the table is empty. -/
theorem get_buildCooccurrenceTable (options : CooccurrenceOptions)
    (docTokenSets : List (Finset Text)) (term : Text) :
    (buildCooccurrenceTable options docTokenSets).get term =
      if (trimmedDocs options docTokenSets).length < max 2 options.minDocs ∨ options.k ≤ 0 then
        none
      else relatedTerms options (trimmedDocs options docTokenSets) term := by
  unfold trimmedDocs buildCooccurrenceTable
  generalize (docTokenSets.filter fun tokens => tokens ≠ ∅) = materialised
  have distinct : ∀ tokens ∈ materialised.map fun tokens =>
      cappedDocTokens tokens options.maxDocTokens, tokens.Nodup := by
    intro tokens member
    obtain ⟨found, -, rfl⟩ := List.mem_map.mp member
    exact nodup_cappedDocTokens found options.maxDocTokens
  have docs : (materialised.map fun tokens =>
      (cappedDocTokens tokens options.maxDocTokens).toFinset) =
        (materialised.map fun tokens =>
          cappedDocTokens tokens options.maxDocTokens).map List.toFinset := by
    rw [List.map_map]
    rfl
  have documents : materialised.length = (materialised.map fun tokens =>
      cappedDocTokens tokens options.maxDocTokens).length := by
    rw [List.length_map]
  rw [docs, List.length_map, ← documents]
  simp only
  by_cases floor : (materialised.length : Int) < max 2 options.minDocs ∨ options.k ≤ 0
  · rw [if_pos floor, if_pos floor]
    rfl
  · rw [if_neg floor, if_neg floor, documents]
    generalize (materialised.map fun tokens =>
      cappedDocTokens tokens options.maxDocTokens) = capped at distinct
    unfold relatedTerms
    by_cases few : (countedTerms options.minCount capped).length < 2
    · rw [if_pos few, partners_eq_nil_of_few distinct few]
      rfl
    · rw [if_neg few, Dict.get_mapValues, ← List.foldl_flatMap]
      have found := get_foldl_offer options.k.toNat (builtOffers options capped) term
      have permuted : (offeredTo term (builtOffers options capped)).Perm
          (partners options (capped.map List.toFinset) term) :=
        perm_offeredTo distinct term
      apply (congrArg (Option.map _) found).trans
      cases offered : offeredTo term (builtOffers options capped) with
      | nil =>
          rw [offered] at permuted
          rw [← permuted.nil_eq]
          rfl
      | cons first rest =>
          rw [offered] at permuted
          cases all : partners options (capped.map List.toFinset) term with
          | nil =>
              rw [all] at permuted
              cases permuted.eq_nil
          | cons other others =>
              rw [all] at permuted
              simp only [Option.map_some]
              rw [best_offerAll Partner.key_injective,
                best_perm Partner.key_injective permuted]

/-- Two documents with two terms. -/
def twoDocs : List (Finset Text) :=
  [{"cache".toList, "index".toList}, {"cache".toList, "index".toList}]

/-- The options of a small corpus under the default floor of fifty documents. -/
def defaultFloor : CooccurrenceOptions :=
  ⟨5, 1, fun _ => true, 50, 400, 500000⟩

/-- Below the floor the table is empty, whatever plain counting finds. -/
theorem small_corpus_has_no_table :
    ¬ ∀ (options : CooccurrenceOptions) (docTokenSets : List (Finset Text)) (term : Text),
      (buildCooccurrenceTable options docTokenSets).get term =
        relatedTerms options docTokenSets term := by
  intro same
  have counted := same defaultFloor twoDocs "cache".toList
  have shared : (⟨(docsWithBoth twoDocs "cache".toList "index".toList * twoDocs.length) /
      (docsWith twoDocs "cache".toList * docsWith twoDocs "index".toList),
      docsWithBoth twoDocs "cache".toList "index".toList, "index".toList⟩ : Partner) ∈
        partners defaultFloor twoDocs "cache".toList := by
    rw [mem_partners]
    refine ⟨by decide, partnerOf_eq_some_iff.mpr ⟨rfl, by decide, by decide, rfl⟩⟩
  have empty : (buildCooccurrenceTable defaultFloor twoDocs).get "cache".toList = none := rfl
  rw [empty, relatedTerms] at counted
  cases found : partners defaultFloor twoDocs "cache".toList with
  | nil =>
      rw [found] at shared
      cases shared
  | cons first rest =>
      rw [found] at counted
      cases counted

end DataOlympus
