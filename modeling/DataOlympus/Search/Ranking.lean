import DataOlympus.Search.Retrieval

/-!
# The ranking discipline of a search

However many passes feed the candidates, a search returns at most as many hits as were asked
for and no document twice.  Behind the hit or the group that the shortcut lifts, the hits of
the backfill passes come last.  Without a reranker the extra passes only add hits at the end.
-/

namespace DataOlympus

open Lines

/-! ## Two classes in a sorted list -/

section Classes

variable {α : Type*} {relation : α → α → Prop} [DecidableRel relation] {late : α → Bool}

/-- No element of the early class stands behind one of the late class. -/
def InClasses (late : α → Bool) (items : List α) : Prop :=
  items.Pairwise fun first second => late first = true → late second = true

theorem InClasses.orderedInsert (before : ∀ a b, late a = false → late b = true → relation a b)
    (behind : ∀ a b, late a = true → late b = false → ¬relation a b) (item : α) {items : List α}
    (sorted : InClasses late items) : InClasses late (items.orderedInsert relation item) := by
  induction items with
  | nil => exact List.pairwise_singleton _ _
  | cons first rest ih =>
      obtain ⟨ahead, others⟩ := List.pairwise_cons.mp sorted
      rw [List.orderedInsert_cons]
      split
      · rename_i related
        refine List.pairwise_cons.mpr ⟨fun other member isLate => ?_, sorted⟩
        have firstLate : late first = true := by
          by_contra early
          exact behind item first isLate (Bool.eq_false_iff.mpr early) related
        rcases List.mem_cons.mp member with rfl | later
        · exact firstLate
        · exact ahead other later firstLate
      · rename_i unrelated
        refine List.pairwise_cons.mpr ⟨fun other member firstLate => ?_, ih others⟩
        rcases (List.mem_orderedInsert relation).mp member with rfl | later
        · by_contra early
          exact unrelated (before other first (Bool.eq_false_iff.mpr early) firstLate)
        · exact ahead other later firstLate

/-- A sort that puts the early class first does so whatever else it compares. -/
theorem inClasses_insertionSort (before : ∀ a b, late a = false → late b = true → relation a b)
    (behind : ∀ a b, late a = true → late b = false → ¬relation a b) (items : List α) :
    InClasses late (items.insertionSort relation) := by
  induction items with
  | nil => exact List.Pairwise.nil
  | cons item rest ih => exact ih.orderedInsert before behind item

/-- An element that goes before the whole second list is inserted into the first. -/
theorem orderedInsert_append {item : α} {second : List α}
    (ahead : ∀ other ∈ second, relation item other) (first : List α) :
    (first ++ second).orderedInsert relation item =
      first.orderedInsert relation item ++ second := by
  induction first with
  | nil =>
      cases second with
      | nil => rfl
      | cons other rest =>
          exact List.orderedInsert_cons_of_le relation rest (ahead other List.mem_cons_self)
  | cons head rest ih =>
      rw [List.cons_append, List.orderedInsert_cons, List.orderedInsert_cons, ih]
      split
      · rfl
      · rfl

/-- A sort that puts the early class first sorts the two classes apart. -/
theorem insertionSort_append (before : ∀ a b, late a = false → late b = true → relation a b)
    {first second : List α} (early : ∀ a ∈ first, late a = false)
    (behind : ∀ b ∈ second, late b = true) :
    (first ++ second).insertionSort relation =
      first.insertionSort relation ++ second.insertionSort relation := by
  induction first with
  | nil => rfl
  | cons item rest ih =>
      obtain ⟨itemEarly, restEarly⟩ := List.forall_mem_cons.mp early
      have ahead : ∀ other ∈ second.insertionSort relation, relation item other := by
        intro other member
        have listed := (List.mem_insertionSort relation).mp member
        exact before item other itemEarly (behind other listed)
      rw [List.cons_append, List.insertionSort_cons, List.insertionSort_cons, ih restEarly,
        orderedInsert_append ahead]

end Classes

namespace Engine

variable {σ : Type} (engine : Engine σ) {index : Index} {admits : DocRow → Bool}

/-! ## No document twice -/

/-- The ids of the hits of one pass are ids of different rows. -/
theorem nodup_select (distinct : (index.rows.map DocRow.id).Nodup) (limit : Nat)
    (found : DocRow → Option (σ × PyStr)) :
    ((engine.select index admits limit found).map SearchHit.id).Nodup := by
  have made : ∀ rows : List DocRow, ((rows.filterMap fun row =>
      (found row).map fun result => SearchHit.ofRow row result.1 result.2).map
        SearchHit.id).Sublist (rows.map DocRow.id) := by
    intro rows
    induction rows with
    | nil => exact List.Sublist.refl _
    | cons row rest ih =>
        rw [List.filterMap_cons]
        cases found row with
        | none => exact ih.cons _
        | some result => exact ih.cons_cons _
  have kept : ((index.rows.filter admits).map DocRow.id).Nodup :=
    distinct.sublist (List.filter_sublist.map DocRow.id)
  refine List.Nodup.sublist ((List.take_sublist _ _).map SearchHit.id) ?_
  exact ((List.perm_insertionSort _ _).map SearchHit.id).nodup_iff.mpr
    (kept.sublist (made (index.rows.filter admits)))

/-- The ids that a backfill pass appends are different and new. -/
theorem nodup_appendFresh (found : List (SearchHit σ)) (worst offset : σ)
    (seenIds : List PyStr) :
    ((engine.appendFresh worst offset seenIds found).map SearchHit.id).Nodup ∧
      ∀ hit ∈ engine.appendFresh worst offset seenIds found,
        hit.id ∉ seenIds ∧ hit.backfill = true := by
  induction found generalizing offset seenIds with
  | nil => exact ⟨List.nodup_nil, fun _ member => absurd member List.not_mem_nil⟩
  | cons hit rest ih =>
      unfold appendFresh
      by_cases seen : hit.id ∈ seenIds
      · rw [if_pos seen]
        exact ih offset seenIds
      · rw [if_neg seen]
        obtain ⟨once, fresh⟩ := ih (engine.add offset engine.one) (hit.id :: seenIds)
        refine ⟨List.nodup_cons.mpr ⟨?_, once⟩, ?_⟩
        · intro again
          rcases List.mem_map.mp again with ⟨other, member, same⟩
          exact (fresh other member).1 (same ▸ List.mem_cons_self)
        · rintro other (_ | ⟨_, member⟩)
          · exact ⟨seen, rfl⟩
          · exact ⟨fun old => (fresh other member).1 (List.mem_cons_of_mem _ old),
              (fresh other member).2⟩

theorem nodup_backfillBehind {before found : List (SearchHit σ)}
    (once : (before.map SearchHit.id).Nodup) :
    ((engine.backfillBehind before found).map SearchHit.id).Nodup := by
  obtain ⟨fresh, new⟩ := engine.nodup_appendFresh found (engine.worst before) engine.one
    (before.map SearchHit.id)
  rw [backfillBehind, List.map_append]
  refine List.nodup_append.mpr ⟨once, fresh, ?_⟩
  rintro id old _ again rfl
  rcases List.mem_map.mp again with ⟨hit, member, rfl⟩
  exact (new hit member).1 old

theorem nodup_expansionBackfill {limit : Nat} {columns : Option (List String)}
    {terms : List Text} {before : List (SearchHit σ)} (once : (before.map SearchHit.id).Nodup) :
    ((engine.expansionBackfill index admits limit columns terms before).map
      SearchHit.id).Nodup := by
  unfold expansionBackfill
  split
  · exact once
  · exact engine.nodup_backfillBehind once

theorem nodup_trigramBackfill {limit : Nat} {query : Text} {before : List (SearchHit σ)}
    (once : (before.map SearchHit.id).Nodup) :
    ((engine.trigramBackfill index admits limit query before).map SearchHit.id).Nodup := by
  unfold trigramBackfill
  split
  · exact once
  · split
    · exact once
    · exact engine.nodup_backfillBehind once

theorem nodup_denseCandidates (dense : Dense σ) (distinct : (index.rows.map DocRow.id).Nodup)
    (query : Text) :
    ((engine.denseCandidates dense index admits query).map SearchHit.id).Nodup := by
  have made : ∀ rows : List DocRow, ((rows.filterMap fun row =>
      ((dense.similarity query row.id).filter fun cosine => engine.le dense.minCosine cosine).map
        fun cosine => SearchHit.ofRow row cosine row.description).map
          SearchHit.id).Sublist (rows.map DocRow.id) := by
    intro rows
    induction rows with
    | nil => exact List.Sublist.refl _
    | cons row rest ih =>
        rw [List.filterMap_cons]
        cases (dense.similarity query row.id).filter fun cosine =>
            engine.le dense.minCosine cosine with
        | none => exact ih.cons _
        | some cosine => exact ih.cons_cons _
  have kept : ((index.rows.filter admits).map DocRow.id).Nodup :=
    distinct.sublist (List.filter_sublist.map DocRow.id)
  refine List.Nodup.sublist ((List.take_sublist _ _).map SearchHit.id) ?_
  exact ((List.perm_insertionSort _ _).map SearchHit.id).nodup_iff.mpr
    (kept.sublist (made (index.rows.filter admits)))

theorem nodup_unionDense (distinct : (index.rows.map DocRow.id).Nodup) {query : Text}
    {before : List (SearchHit σ)} (once : (before.map SearchHit.id).Nodup) :
    ((engine.unionDense index admits query before).map SearchHit.id).Nodup := by
  unfold unionDense
  split
  · exact once
  · rename_i dense _
    have candidates := @nodup_denseCandidates _ engine index admits dense distinct query
    rw [List.map_append, List.map_map]
    refine List.nodup_append.mpr ⟨once, ?_, ?_⟩
    · exact candidates.sublist (List.filter_sublist.map SearchHit.id)
    · rintro id old _ again rfl
      rcases List.mem_map.mp again with ⟨hit, member, rfl⟩
      exact of_decide_eq_true (List.mem_filter.mp member).2 old

/-- No document is twice among the candidates. -/
theorem nodup_pool (distinct : (index.rows.map DocRow.id).Nodup) (limit : Nat)
    (columns : Option (List String)) (query : Text) (terms expansionTerms : List Text) :
    ((engine.pool index admits limit columns query terms expansionTerms).map
      SearchHit.id).Nodup := by
  unfold pool
  apply engine.nodup_unionDense distinct
  apply engine.nodup_trigramBackfill
  apply engine.nodup_expansionBackfill
  exact engine.nodup_select distinct _ _

/-- A reranker under the shortcut keeps the ids. -/
theorem perm_innerRerank (query : Text) (kind : InnerReranker) (hits : List (SearchHit σ)) :
    ((engine.innerRerank query kind hits).map SearchHit.id).Perm (hits.map SearchHit.id) := by
  cases kind with
  | status =>
      refine ((List.perm_insertionSort _ _).map SearchHit.id).trans ?_
      rw [List.map_map]
      exact List.Perm.refl _
  | hybrid =>
      refine ((List.perm_insertionSort _ _).map SearchHit.id).trans ?_
      rw [List.map_map]
      exact List.Perm.refl _

theorem perm_foldl_innerRerank (query : Text) (kinds : List InnerReranker)
    (hits : List (SearchHit σ)) :
    ((kinds.foldl (fun hits kind => engine.innerRerank query kind hits) hits).map
      SearchHit.id).Perm (hits.map SearchHit.id) := by
  induction kinds generalizing hits with
  | nil => exact List.Perm.refl _
  | cons kind rest ih => exact (ih _).trans (engine.perm_innerRerank query kind hits)

/-- The shortcut adds no document that is there already. -/
theorem nodup_shortcut {query : Text} {hits : List (SearchHit σ)}
    (once : (hits.map SearchHit.id).Nodup) :
    ((engine.shortcut index query hits).map SearchHit.id).Nodup := by
  unfold shortcut
  split
  · rename_i row _
    dsimp only
    have top : ((hits.find? fun hit => hit.id = row.id).getD
        (SearchHit.ofDoc row engine.negativeInfinity)).id = row.id := by
      cases found : hits.find? fun hit => hit.id = row.id with
      | none => rfl
      | some hit => simpa using List.find?_some found
    rw [List.map_cons, top]
    refine List.nodup_cons.mpr ⟨?_, once.sublist (List.filter_sublist.map SearchHit.id)⟩
    intro again
    rcases List.mem_map.mp again with ⟨hit, member, same⟩
    exact of_decide_eq_true (List.mem_filter.mp member).2 same
  · split
    · exact once
    · rename_i tag _
      dsimp only
      rw [List.map_append]
      refine List.nodup_append.mpr ⟨once.sublist (List.filter_sublist.map _),
        once.sublist (List.filter_sublist.map _), ?_⟩
      rintro id tagged _ again rfl
      rcases List.mem_map.mp tagged with ⟨hit, member, rfl⟩
      rcases List.mem_map.mp again with ⟨other, otherIn, same⟩
      have inGroup := of_decide_eq_true (List.mem_filter.mp member).2
      exact of_decide_eq_true (List.mem_filter.mp otherIn).2 (same ▸ inGroup)

/-! ## Backfill comes last -/

theorem inClasses_byRank (hits : List (SearchHit σ)) :
    InClasses SearchHit.backfill (engine.byRank hits) := by
  apply inClasses_insertionSort
  · intro first second early late
    simp [early, late]
  · intro first second late early
    simp [early, late]

/-- The last of the rerankers under the shortcut puts the backfill hits last. -/
theorem inClasses_foldl_innerRerank (query : Text) {kinds : List InnerReranker}
    (installed : kinds ≠ []) (hits : List (SearchHit σ)) :
    InClasses SearchHit.backfill
      (kinds.foldl (fun hits kind => engine.innerRerank query kind hits) hits) := by
  rw [← List.dropLast_append_getLast installed, List.foldl_append]
  cases kinds.getLast installed with
  | status => exact engine.inClasses_byRank _
  | hybrid => exact engine.inClasses_byRank _

theorem backfill_select {limit : Nat} {found : DocRow → Option (σ × PyStr)} {hit : SearchHit σ}
    (member : hit ∈ engine.select index admits limit found) : hit.backfill = false := by
  have selected := List.mem_of_mem_take member
  rw [byScore, List.mem_insertionSort] at selected
  rcases List.mem_filterMap.mp selected with ⟨row, -, made⟩
  rcases Option.map_eq_some_iff.mp made with ⟨result, -, rfl⟩
  rfl

theorem inClasses_backfillBehind {before found : List (SearchHit σ)}
    (sorted : InClasses SearchHit.backfill before) :
    InClasses SearchHit.backfill (engine.backfillBehind before found) := by
  obtain ⟨-, new⟩ := engine.nodup_appendFresh found (engine.worst before) engine.one
    (before.map SearchHit.id)
  have late : InClasses SearchHit.backfill
      (engine.appendFresh (engine.worst before) engine.one (before.map SearchHit.id) found) :=
    List.pairwise_of_forall_mem_list fun _ _ second member _ => (new second member).2
  exact List.pairwise_append.mpr ⟨sorted, late, fun _ _ second member _ => (new second member).2⟩

/-- Without dense candidates the passes already stand in the order of their classes. -/
theorem inClasses_pool (lexical : engine.dense = none) (limit : Nat)
    (columns : Option (List String)) (query : Text) (terms expansionTerms : List Text) :
    InClasses SearchHit.backfill
      (engine.pool index admits limit columns query terms expansionTerms) := by
  have primary : InClasses SearchHit.backfill
      (engine.select index admits limit (engine.fts columns terms)) :=
    List.pairwise_of_forall_mem_list fun first member _ _ late =>
      absurd late (by simp [engine.backfill_select member])
  have expanded : InClasses SearchHit.backfill (engine.expansionBackfill index admits limit
      columns expansionTerms (engine.select index admits limit (engine.fts columns terms))) := by
    unfold expansionBackfill
    split
    · exact primary
    · exact engine.inClasses_backfillBehind primary
  unfold pool unionDense
  rw [lexical]
  dsimp only
  unfold trigramBackfill
  split
  · exact expanded
  · split
    · exact expanded
    · exact engine.inClasses_backfillBehind expanded

/-- A hit that the shortcut may lift: the document of the id that was asked for, or one that
carries the tag that was. -/
def Lifted (index : Index) (query : Text) (hit : SearchHit σ) : Prop :=
  (∃ token row, Token.looksLikeId query = some token ∧
      index.get (PyStr.ofText token) = some row ∧ hit.id = row.id) ∨
    ∃ tag, Token.looksLikeTag query = some tag ∧ hit.id ∈ index.idsWithExactTag tag

/-- Hits that the shortcut lifted, and behind them the backfill hits last. -/
structure Ranked (rerankers : Rerankers) (index : Index) (query : Text)
    (lifted rest : List (SearchHit σ)) : Prop where
  lifted : ∀ hit ∈ lifted, rerankers.shortcut = true ∧ Lifted index query hit
  rest : InClasses SearchHit.backfill rest

theorem exists_ranked_shortcut {rerankers : Rerankers} (installed : rerankers.shortcut = true)
    {query : Text} {hits : List (SearchHit σ)} (sorted : InClasses SearchHit.backfill hits) :
    ∃ lifted rest, engine.shortcut index query hits = lifted ++ rest ∧
      Ranked rerankers index query lifted rest := by
  unfold shortcut
  split
  · rename_i row found
    rcases Option.bind_eq_some_iff.mp found with ⟨token, asked, here⟩
    refine ⟨[_], _, rfl, ?_, sorted.sublist List.filter_sublist⟩
    intro hit member
    refine ⟨installed, .inl ⟨token, row, asked, here, ?_⟩⟩
    rw [List.mem_singleton.mp member]
    cases existing : hits.find? fun hit => hit.id = row.id with
    | none => rfl
    | some hit => simpa using List.find?_some existing
  · split
    · exact ⟨[], hits, rfl, fun _ member => absurd member List.not_mem_nil, sorted⟩
    · rename_i tag asked
      refine ⟨_, _, rfl, ?_, sorted.sublist List.filter_sublist⟩
      intro hit member
      exact ⟨installed, .inr ⟨tag, asked, of_decide_eq_true (List.mem_filter.mp member).2⟩⟩

theorem exists_ranked_rerank {rerankers : Rerankers} {query : Text} {hits : List (SearchHit σ)}
    (sorted : rerankers.inner ≠ [] ∨ InClasses SearchHit.backfill hits) :
    ∃ lifted rest, engine.rerank rerankers index query hits = lifted ++ rest ∧
      Ranked rerankers index query lifted rest := by
  have reordered : InClasses SearchHit.backfill
      (rerankers.inner.foldl (fun hits kind => engine.innerRerank query kind hits) hits) := by
    by_cases installed : rerankers.inner = []
    · rw [installed]
      exact sorted.resolve_left (not_not_intro installed)
    · exact engine.inClasses_foldl_innerRerank query installed hits
  unfold rerank
  dsimp only
  split
  · rename_i installed
    exact engine.exists_ranked_shortcut installed reordered
  · exact ⟨[], _, rfl, fun _ member => absurd member List.not_mem_nil, reordered⟩

/-! ## The whole search -/

/-- The candidates of one search. -/
def candidates (rerankers : Rerankers) (index : Index) (admits : DocRow → Bool) (query : Text)
    (limit : Nat) (columns : Option (List String)) : List (SearchHit σ) :=
  engine.pool index admits (candidateLimit rerankers limit) columns query (primaryTerms query)
    (engine.freshTerms ((primaryTerms query).map engine.lower)
      (engine.expandedTerms (primaryTerms query)))

/-- A search that returns hits cut them from the reranked pool, or there was nothing to
search for or with. -/
theorem search_cases {rerankers : Rerankers} {calendar : Calendar} {query : Text} {limit : Nat}
    {facets : Facets} {columns : Option (List String)} {today : Date}
    {hits : List (SearchHit σ)}
    (searched : engine.search rerankers calendar index query limit facets columns today =
      .ok hits) :
    hits = [] ∧ (primaryTerms query = [] ∨ engine.expandedTerms (primaryTerms query) = [] ∨
      engine.unavailable = true) ∨
    ∃ admits, calendar.facetFilters index facets today = .ok admits ∧
      primaryTerms query ≠ [] ∧ engine.unavailable = false ∧
      hits = ((engine.rerank rerankers index query
        (engine.candidates rerankers index admits query limit columns)).take limit).map fun hit =>
          { hit with supersededBy := index.supersededBy hit.id } := by
  unfold search at searched
  dsimp only at searched
  split at searched
  · rename_i nothing
    refine .inl ⟨(Except.ok.inj searched).symm, ?_⟩
    rcases Bool.or_eq_true_iff.mp nothing with noTerms | noExpansion
    · exact .inl (List.isEmpty_iff.mp noTerms)
    · exact .inr (.inl (List.isEmpty_iff.mp noExpansion))
  · rename_i something
    rcases Except.bind_eq_ok_iff.mp searched with ⟨admits, filters, rest⟩
    split at rest
    · rename_i failed
      exact .inl ⟨(Except.ok.inj rest).symm, .inr (.inr failed)⟩
    · rename_i available
      refine .inr ⟨admits, filters, ?_, Bool.eq_false_iff.mpr available,
        (Except.ok.inj rest).symm⟩
      intro noTerms
      exact something (by rw [noTerms]; rfl)

/-- A search returns at most `limit` hits and no document twice.  Behind what the shortcut
lifted, no backfill hit stands ahead of a primary one, if a reranker sorts the pool or the
pool has no dense candidates. -/
theorem search_ranked {runtime : Runtime} {config : IndexConfig} {tree : Tree}
    (built : runtime.build config tree = .ok index) {rerankers : Rerankers}
    {calendar : Calendar} {query : Text} {limit : Nat} {facets : Facets}
    {columns : Option (List String)} {today : Date} {hits : List (SearchHit σ)}
    (searched : engine.search rerankers calendar index query limit facets columns today =
      .ok hits) :
    hits.length ≤ limit ∧ (hits.map SearchHit.id).Nodup ∧
      (rerankers.inner ≠ [] ∨ engine.dense = none →
        ∃ lifted rest, hits = lifted ++ rest ∧ Ranked rerankers index query lifted rest) := by
  have distinct := runtime.row_id_nodup_of_build config built
  rcases engine.search_cases searched with ⟨rfl, -⟩ | ⟨admits, -, -, -, rfl⟩
  · exact ⟨Nat.zero_le _, List.nodup_nil, fun _ => ⟨[], [], rfl,
      fun _ member => absurd member List.not_mem_nil, List.Pairwise.nil⟩⟩
  · have once : ((engine.candidates rerankers index admits query limit columns).map
        SearchHit.id).Nodup :=
      engine.nodup_pool distinct _ _ _ _ _
    refine ⟨?_, ?_, ?_⟩
    · rw [List.length_map]
      exact List.length_take_le _ _
    · rw [List.map_map]
      refine List.Nodup.sublist ((List.take_sublist _ _).map SearchHit.id) ?_
      have reordered := (engine.perm_foldl_innerRerank query rerankers.inner _).nodup_iff.mpr once
      unfold rerank
      dsimp only
      split
      · exact engine.nodup_shortcut reordered
      · exact reordered
    · intro sorting
      have sorted : rerankers.inner ≠ [] ∨ InClasses SearchHit.backfill
          (engine.candidates rerankers index admits query limit columns) :=
        sorting.imp_right fun lexical => engine.inClasses_pool lexical _ _ _ _ _
      have ⟨lifted, rest, made, ranked⟩ := @exists_ranked_rerank _ engine index _ query _ sorted
      refine ⟨(lifted.take limit).map fun hit =>
          { hit with supersededBy := index.supersededBy hit.id },
        (rest.take (limit - lifted.length)).map fun hit =>
          { hit with supersededBy := index.supersededBy hit.id }, ?_, ?_, ?_⟩
      · rw [made, List.take_append, List.map_append]
      · intro hit member
        rcases List.mem_map.mp member with ⟨original, taken, rfl⟩
        exact ranked.lifted original (List.mem_of_mem_take taken)
      · exact (ranked.rest.sublist (List.take_sublist _ _)).map _ fun _ _ ordered => ordered

/-- A draft, and a note about something else. -/
def twoDocuments : Tree :=
  Tree.write (Tree.write ∅ rulePath (draft "Ask"))
    ⟨["decisions".toList, "note.md".toList], by decide, by decide⟩ "# first".toList

/-- An engine that finds documents by their titles, and every document as a fuzzy match. -/
def titled : Engine Unit :=
  { Engine.silent with
    fts := fun _ terms row =>
      if row.title ∈ terms.map PyStr.ofText then some ((), row.title) else none
    trigram := some (5, fun _ _ => some ()) }

/-- The title of a draft, behind which the trigram pass finds the note. -/
theorem search_ranked_draft :
    ∃ index hits, (draftLoader "Ask" (PyStr.lit "Ask")).build IndexConfig.default
        twoDocuments = .ok index ∧
      titled.search Rerankers.default Calendar.plain index "Ask".toList 20
        Facets.default none ⟨2026, 1, 1⟩ = .ok hits ∧
      hits.map SearchHit.backfill = [false, true] ∧ hits.length ≤ 20 ∧
      (hits.map SearchHit.id).Nodup ∧
      ∃ lifted rest, hits = lifted ++ rest ∧
        Ranked Rerankers.default index "Ask".toList lifted rest := by
  have ranked : ∀ index hits, (draftLoader "Ask" (PyStr.lit "Ask")).build IndexConfig.default
        twoDocuments = .ok index →
      titled.search Rerankers.default Calendar.plain index "Ask".toList 20
        Facets.default none ⟨2026, 1, 1⟩ = .ok hits →
      hits.length ≤ 20 ∧ (hits.map SearchHit.id).Nodup ∧
        ∃ lifted rest, hits = lifted ++ rest ∧
          Ranked Rerankers.default index "Ask".toList lifted rest := by
    intro index hits built searched
    have whole := search_ranked titled built searched
    exact ⟨whole.1, whole.2.1, whole.2.2 (.inr rfl)⟩
  exact ⟨_, _, rfl, rfl, rfl, ranked _ _ rfl rfl⟩

/-! ## What the extra passes leave alone -/

/-- The engine without the passes behind the primary one. -/
def primaryOnly : Engine σ :=
  { engine with queryExpander := none, trigram := none, dense := none }

@[simp]
theorem expandedTerms_primaryOnly (terms : List Text) :
    engine.primaryOnly.expandedTerms terms = terms :=
  rfl

theorem freshTerms_primaryOnly (seenTerms : List Text) {terms : List Text}
    (known : ∀ term ∈ terms, engine.lower term ∈ seenTerms) :
    engine.primaryOnly.freshTerms seenTerms terms = [] := by
  induction terms with
  | nil => rfl
  | cons term rest ih =>
      obtain ⟨here, later⟩ := List.forall_mem_cons.mp known
      unfold freshTerms
      dsimp only
      rw [if_pos (by exact here)]
      exact ih later

/-- The extra passes append backfill hits to the primary ones. -/
theorem exists_pool_eq_append (lexical : engine.dense = none) (limit : Nat)
    (columns : Option (List String)) (query : Text) (terms expansionTerms : List Text) :
    ∃ late, engine.pool index admits limit columns query terms expansionTerms =
        engine.select index admits limit (engine.fts columns terms) ++ late ∧
      ∀ hit ∈ late, hit.backfill = true := by
  have behind : ∀ before found : List (SearchHit σ),
      ∃ late, engine.backfillBehind before found = before ++ late ∧
        ∀ hit ∈ late, hit.backfill = true := fun before found =>
    ⟨_, rfl, fun hit member => ((engine.nodup_appendFresh found _ _ _).2 hit member).2⟩
  have expanded : ∃ late, engine.expansionBackfill index admits limit columns expansionTerms
        (engine.select index admits limit (engine.fts columns terms)) =
          engine.select index admits limit (engine.fts columns terms) ++ late ∧
        ∀ hit ∈ late, hit.backfill = true := by
    unfold expansionBackfill
    split
    · exact ⟨[], (List.append_nil _).symm, fun _ member => absurd member List.not_mem_nil⟩
    · exact behind _ _
  rcases expanded with ⟨first, split, firstLate⟩
  unfold pool unionDense
  rw [lexical]
  dsimp only
  rw [split]
  unfold trigramBackfill
  split
  · exact ⟨first, rfl, firstLate⟩
  · split
    · exact ⟨first, rfl, firstLate⟩
    · refine ⟨first ++ engine.appendFresh _ _ _ _, List.append_assoc _ _ _, ?_⟩
      intro hit member
      rcases List.mem_append.mp member with early | late
      · exact firstLate hit early
      · exact ((engine.nodup_appendFresh _ _ _ _).2 hit late).2

theorem exists_candidates_eq_append (lexical : engine.dense = none) (rerankers : Rerankers)
    (query : Text) (limit : Nat) (columns : Option (List String)) :
    ∃ late, engine.candidates rerankers index admits query limit columns =
        engine.select index admits (candidateLimit rerankers limit)
          (engine.fts columns (primaryTerms query)) ++ late ∧
      ∀ hit ∈ late, hit.backfill = true :=
  engine.exists_pool_eq_append lexical _ _ _ _ _

theorem backfill_of_mem_statusRerank {hits : List (SearchHit σ)} {hit : SearchHit σ}
    (member : hit ∈ engine.statusRerank hits) :
    ∃ original ∈ hits, hit.backfill = original.backfill := by
  rw [statusRerank, byRank, List.mem_insertionSort] at member
  rcases List.mem_map.mp member with ⟨original, originalIn, rfl⟩
  exact ⟨original, originalIn, rfl⟩

/-- The status reranker orders the two classes apart. -/
theorem statusRerank_append {first second : List (SearchHit σ)}
    (early : ∀ hit ∈ first, hit.backfill = false) (late : ∀ hit ∈ second, hit.backfill = true) :
    engine.statusRerank (first ++ second) =
      engine.statusRerank first ++ engine.statusRerank second := by
  unfold statusRerank byRank
  rw [List.map_append]
  apply @insertionSort_append _ _ _ SearchHit.backfill
  · intro first second early late
    simp [early, late]
  · intro hit member
    rcases List.mem_map.mp member with ⟨original, originalIn, rfl⟩
    exact early original originalIn
  · intro hit member
    rcases List.mem_map.mp member with ⟨original, originalIn, rfl⟩
    exact late original originalIn

theorem foldl_innerRerank_append (query : Text) {kinds : List InnerReranker}
    (statusOnly : ∀ kind ∈ kinds, kind = .status) {first second : List (SearchHit σ)}
    (early : ∀ hit ∈ first, hit.backfill = false) (late : ∀ hit ∈ second, hit.backfill = true) :
    kinds.foldl (fun hits kind => engine.innerRerank query kind hits) (first ++ second) =
      kinds.foldl (fun hits kind => engine.innerRerank query kind hits) first ++
        kinds.foldl (fun hits kind => engine.innerRerank query kind hits) second := by
  induction kinds generalizing first second with
  | nil => rfl
  | cons kind rest ih =>
      obtain ⟨rfl, restStatus⟩ := List.forall_mem_cons.mp statusOnly
      rw [List.foldl_cons, List.foldl_cons, List.foldl_cons]
      change rest.foldl _ (engine.statusRerank (first ++ second)) =
        rest.foldl _ (engine.statusRerank first) ++ rest.foldl _ (engine.statusRerank second)
      rw [engine.statusRerank_append early late]
      apply ih restStatus
      · intro hit member
        rcases engine.backfill_of_mem_statusRerank member with ⟨original, originalIn, same⟩
        exact same.trans (early original originalIn)
      · intro hit member
        rcases engine.backfill_of_mem_statusRerank member with ⟨original, originalIn, same⟩
        exact same.trans (late original originalIn)

theorem innerRerank_primaryOnly (query : Text) {kinds : List InnerReranker}
    (hits : List (SearchHit σ)) :
    kinds.foldl (fun hits kind => engine.primaryOnly.innerRerank query kind hits) hits =
      kinds.foldl (fun hits kind => engine.innerRerank query kind hits) hits := by
  induction kinds generalizing hits with
  | nil => rfl
  | cons kind rest ih =>
      cases kind with
      | status => exact ih (engine.statusRerank hits)
      | hybrid => exact ih (engine.hybridRerank query hits)

/-- A query that is no single token is left to the rerankers under the shortcut. -/
theorem rerank_of_single_eq_none {rerankers : Rerankers} {query : Text}
    (several : rerankers.shortcut = true → Token.single query = none)
    (hits : List (SearchHit σ)) :
    engine.rerank rerankers index query hits =
      rerankers.inner.foldl (fun hits kind => engine.innerRerank query kind hits) hits := by
  unfold rerank
  dsimp only
  split
  · rename_i installed
    have noId : Token.looksLikeId query = none := by
      rw [Token.looksLikeId, several installed]
      rfl
    have noTag : Token.looksLikeTag query = none := by
      rw [Token.looksLikeTag, several installed]
      rfl
    unfold shortcut
    rw [noId, noTag]
    rfl
  · rfl

/-- The expansion terms and the trigram fallback never displace, reorder or rescore a hit: the
answer to a query of several words extends the answer of the primary pass alone. -/
theorem search_extends_primary {rerankers : Rerankers}
    (statusOnly : ∀ kind ∈ rerankers.inner, kind = .status) (lexical : engine.dense = none)
    {query : Text} (several : rerankers.shortcut = true → Token.single query = none)
    (expands : primaryTerms query ≠ [] → engine.expandedTerms (primaryTerms query) ≠ [])
    {calendar : Calendar} {limit : Nat} {facets : Facets} {columns : Option (List String)}
    {today : Date} {hits alone : List (SearchHit σ)}
    (searched : engine.search rerankers calendar index query limit facets columns today =
      .ok hits)
    (primary : engine.primaryOnly.search rerankers calendar index query limit facets columns
      today = .ok alone) :
    alone <+: hits := by
  rcases engine.primaryOnly.search_cases primary with
    ⟨rfl, -⟩ | ⟨admits, filters, something, available, rfl⟩
  · exact List.nil_prefix
  · rcases engine.search_cases searched with ⟨-, nothing⟩ | ⟨again, filtersAgain, -, -, rfl⟩
    · rcases nothing with noTerms | noExpansion | failed
      · exact absurd noTerms something
      · exact absurd noExpansion (expands something)
      · exact absurd failed (Bool.eq_false_iff.mp available)
    · cases filters.symm.trans filtersAgain
      have noFresh : engine.primaryOnly.freshTerms
          ((primaryTerms query).map engine.primaryOnly.lower) (primaryTerms query) = [] :=
        engine.freshTerms_primaryOnly _ fun term member => List.mem_map_of_mem member
      have alone : engine.primaryOnly.candidates rerankers index admits query limit columns =
          engine.select index admits (candidateLimit rerankers limit)
            (engine.fts columns (primaryTerms query)) := by
        rw [candidates, expandedTerms_primaryOnly, noFresh]
        rfl
      rcases @exists_candidates_eq_append _ engine index admits lexical rerankers query limit
        columns with ⟨late, pooled, isLate⟩
      rw [rerank_of_single_eq_none _ several, rerank_of_single_eq_none _ several,
        innerRerank_primaryOnly, alone, pooled, engine.foldl_innerRerank_append query statusOnly
          (fun hit member => engine.backfill_select member) isLate]
      exact ((List.prefix_append _ _).take limit).map _

/-- The engine that expands every query by one word. -/
def expanding : Engine Unit :=
  { titled with queryExpander := some fun terms => terms ++ ["first".toList] }

/-- A query of two words, of which one is the title of the draft; the expansion finds the note. -/
theorem search_extends_primary_ask :
    ∃ index hits alone, (draftLoader "Ask" (PyStr.lit "Ask")).build IndexConfig.default
        twoDocuments = .ok index ∧
      expanding.search Rerankers.default Calendar.plain index "Ask twice".toList 20
        Facets.default none ⟨2026, 1, 1⟩ = .ok hits ∧
      expanding.primaryOnly.search Rerankers.default Calendar.plain index "Ask twice".toList 20
        Facets.default none ⟨2026, 1, 1⟩ = .ok alone ∧
      alone.map SearchHit.backfill = [false] ∧ hits.map SearchHit.backfill = [false, true] ∧
      alone <+: hits := by
  have extended : ∀ index hits alone,
      expanding.search Rerankers.default Calendar.plain index "Ask twice".toList 20
        Facets.default none ⟨2026, 1, 1⟩ = .ok hits →
      expanding.primaryOnly.search Rerankers.default Calendar.plain index "Ask twice".toList 20
        Facets.default none ⟨2026, 1, 1⟩ = .ok alone → alone <+: hits := by
    intro index hits alone searched primary
    have statusOnly : ∀ kind ∈ Rerankers.default.inner, kind = .status := by
      intro kind member
      exact List.mem_singleton.mp member
    exact search_extends_primary expanding statusOnly rfl (fun _ => by decide)
      (fun _ => List.append_ne_nil_of_right_ne_nil _ (List.cons_ne_nil _ _)) searched primary
  exact ⟨_, _, _, rfl, rfl, rfl, rfl, rfl, extended _ _ _ rfl rfl⟩

end Engine

end DataOlympus
