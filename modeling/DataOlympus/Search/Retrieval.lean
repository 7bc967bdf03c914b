import DataOlympus.Enforce.Classifier
import DataOlympus.Gate.Accepted
import DataOlympus.Search.Pipeline

/-!
# Retrieval

What an agent gets to see: `kb_search` and `kb_get` report an in-force flag with every
document, and `kb_consult` returns the hits of a search restricted to rules in force.
The filters hold through every pass and every reranker; the exact-id shortcut alone adds
a hit that no filter has seen.
-/

namespace DataOlympus

open Lines

/-- One hit of a response.  The freshness texts are left out. -/
structure SearchHitModel (σ : Type) where
  hit : SearchHit σ
  inForce : Bool

structure SearchResponse (σ : Type) where
  hits : List (SearchHitModel σ)
  abstained : Bool

/-- The document `kb_get` returns, with its flag. -/
structure GetResponse where
  doc : DocRow
  inForce : Bool
  supersededBy : List PyStr

/-- `SIGNAL_COLUMNS`. -/
def signalColumns : List String :=
  ["title", "tags", "applies_when"]

/-- The flag the response layer computes from what a hit carries. -/
def HitFacts.inForce (facts : HitFacts) (index : Index) (today : Date) : Bool :=
  facts.id ∉ index.excludedIds today &&
    isInForce facts.status facts.validFrom facts.validUntil today facts.isInbox

/-- `kb_get_fn(…)`; `none` is `KbNotFoundError`. -/
def kbGet (index : Index) (id : PyStr) (today : Date) : Option GetResponse :=
  (index.get id).map fun row => {
    doc := row
    inForce := row.id ∉ index.excludedIds today &&
      isInForce row.status row.validFrom row.validUntil today row.isInbox
    supersededBy := index.supersededBy id }

section Retrieval

variable {σ : Type} (engine : Engine σ) (rerankers : Rerankers) (calendar : Calendar)
  (index : Index)

/-- `abstain_gate(…)`; `none` is an abstention. -/
def abstainGate (query : Text) (limit : Nat) (facets : Facets) (today : Date) :
    Except SearchError (Option (List (SearchHit σ))) :=
  if strip query = [] then .ok none
  else do
    let signal ← engine.search rerankers calendar index query limit facets
      (some signalColumns) today
    if signal.isEmpty then return none
    else
      let hits ← engine.search rerankers calendar index query limit facets none today
      return some hits

/-- The limit of a request, clamped to 1..100. -/
def clampLimit (limit : Int) : Nat :=
  (max 1 (min 100 limit)).toNat

/-- The hits a response is rendered from; `none` is an abstention. -/
def foundHits (query : Text) (limit : Int) (facets : Facets) (abstain : Bool) (today : Date) :
    Except SearchError (Option (List (SearchHit σ))) :=
  if abstain then
    abstainGate engine rerankers calendar index query (clampLimit limit) facets today
  else
    (engine.search rerankers calendar index query (clampLimit limit) facets none today).map
      some

/-- `kb_search_fn(…)`. -/
def kbSearch (query : Text) (limit : Int) (facets : Facets) (abstain : Bool) (today : Date) :
    Except SearchError (SearchResponse σ) :=
  (foundHits engine rerankers calendar index query limit facets abstain today).map fun
    | none => ⟨[], true⟩
    | some hits => ⟨hits.map fun hit => ⟨hit, hit.facts.inForce index today⟩, false⟩

/-- The facets of a consult. -/
def Facets.consult : Facets :=
  { Facets.default with inForce := true }

/-- The rules `kb_consult_fn(…)` returns; `governed` is the verdict of the classifier. -/
def kbConsult (governed : Text → Bool) (intent : Text) (limit : Int) (today : Date) :
    Except SearchError (List (SearchHitModel σ)) :=
  let bounded := intent.take maxConsultIntentChars
  if governed bounded then
    (kbSearch engine rerankers calendar index bounded limit Facets.consult false today).map
      SearchResponse.hits
  else .ok []

end Retrieval

/-! ## What a hit must satisfy -/

section Sound

variable (index : Index) (admits : DocRow → Bool) (today : Date)

/-- The hit is of an indexed document that the filters admit, and the flag computed from
it is the flag of that document. -/
def HitFacts.Sound (facts : HitFacts) : Prop :=
  ∃ row, index.get facts.id = some row ∧ admits row = true ∧
    facts.inForce index today = index.inForce today row

/-- All hits of a pool are sound. -/
def PoolSound {σ : Type} (hits : List (SearchHit σ)) : Prop :=
  ∀ hit ∈ hits, hit.facts.Sound index admits today

variable {index admits today} {σ : Type} {engine : Engine σ}

/-- A row judged by its own columns. -/
theorem inForce_of_row (row : DocRow) :
    (⟨row.id, row.status, row.validFrom, row.validUntil, row.isInbox⟩ : HitFacts).inForce
      index today = index.inForce today row := by
  have excluded : decide (row.id ∉ index.excludedIds today) =
      !index.graphExcluded today row.id := by
    simp [Index.mem_excludedIds_iff]
  rw [HitFacts.inForce, excluded]
  rfl

theorem get_of_mem (distinct : (index.rows.map DocRow.id).Nodup) {row : DocRow}
    (member : row ∈ index.rows) : index.get row.id = some row := by
  cases found : index.get row.id with
  | none =>
      have missing := List.find?_eq_none.mp found row member
      simp at missing
  | some other =>
      have same : other.id = row.id := by simpa using List.find?_some found
      have otherIn := List.mem_of_find?_eq_some found
      rw [List.inj_on_of_nodup_map distinct otherIn member same]

/-- A pass returns sound hits. -/
theorem select_sound (engine : Engine σ) (distinct : (index.rows.map DocRow.id).Nodup) (limit : Nat)
    (found : DocRow → Option (σ × PyStr)) :
    PoolSound index admits today (engine.select index admits limit found) := by
  intro hit member
  have selected := List.mem_of_mem_take member
  rw [Engine.byScore, List.mem_insertionSort] at selected
  rcases List.mem_filterMap.mp selected with ⟨row, kept, made⟩
  rcases List.mem_filter.mp kept with ⟨rowIn, admitted⟩
  rcases Option.map_eq_some_iff.mp made with ⟨result, -, rfl⟩
  exact ⟨row, get_of_mem distinct rowIn, admitted, inForce_of_row row⟩

theorem mem_appendFresh {found : List (SearchHit σ)} {worst offset : σ} {seenIds : List PyStr}
    {hit : SearchHit σ} (member : hit ∈ engine.appendFresh worst offset seenIds found) :
    ∃ original ∈ found, hit.facts = original.facts := by
  induction found generalizing offset seenIds with
  | nil => cases member
  | cons first rest ih =>
      unfold Engine.appendFresh at member
      by_cases seen : first.id ∈ seenIds
      · rw [if_pos seen] at member
        rcases ih member with ⟨original, originalIn, same⟩
        exact ⟨original, List.mem_cons_of_mem _ originalIn, same⟩
      · rw [if_neg seen] at member
        rcases List.mem_cons.mp member with rfl | later
        · exact ⟨first, List.mem_cons_self, rfl⟩
        · rcases ih later with ⟨original, originalIn, same⟩
          exact ⟨original, List.mem_cons_of_mem _ originalIn, same⟩

/-- Hits made from the facts of sound hits are sound. -/
theorem PoolSound.of_facts {hits changed : List (SearchHit σ)}
    (sound : PoolSound index admits today hits)
    (from_hits : ∀ hit ∈ changed, ∃ original ∈ hits, hit.facts = original.facts) :
    PoolSound index admits today changed := by
  intro hit member
  rcases from_hits hit member with ⟨original, originalIn, same⟩
  rw [same]
  exact sound original originalIn

theorem PoolSound.append {before after : List (SearchHit σ)}
    (beforeSound : PoolSound index admits today before)
    (afterSound : PoolSound index admits today after) :
    PoolSound index admits today (before ++ after) := by
  intro hit member
  rcases List.mem_append.mp member with here | there
  · exact beforeSound hit here
  · exact afterSound hit there

theorem PoolSound.backfillBehind {before found : List (SearchHit σ)}
    (beforeSound : PoolSound index admits today before)
    (foundSound : PoolSound index admits today found) :
    PoolSound index admits today (engine.backfillBehind before found) := by
  apply beforeSound.append
  apply foundSound.of_facts
  intro hit member
  exact mem_appendFresh member

/-- The candidates are sound before any reranker sees them. -/
theorem pool_sound (engine : Engine σ) (distinct : (index.rows.map DocRow.id).Nodup) (limit : Nat)
    (columns : Option (List String)) (query : Text) (primaryTerms expansionTerms : List Text) :
    PoolSound index admits today
      (engine.pool index admits limit columns query primaryTerms expansionTerms) := by
  have primary : PoolSound index admits today
      (engine.select index admits limit (engine.fts columns primaryTerms)) :=
    select_sound engine distinct limit _
  have expanded : PoolSound index admits today (engine.expansionBackfill index admits limit
      columns expansionTerms (engine.select index admits limit
        (engine.fts columns primaryTerms))) := by
    unfold Engine.expansionBackfill
    split
    · exact primary
    · exact primary.backfillBehind (select_sound engine distinct limit _)
  have filled : ∀ capped before, PoolSound index admits today before →
      PoolSound index admits today
        (engine.trigramBackfill index admits limit capped before) := by
    intro capped before beforeSound
    unfold Engine.trigramBackfill
    split
    · exact beforeSound
    · split
      · exact beforeSound
      · exact beforeSound.backfillBehind (select_sound engine distinct limit _)
  unfold Engine.pool Engine.unionDense
  split
  · exact filled _ _ expanded
  · rename_i dense _
    apply (filled _ _ expanded).append
    intro hit member
    rcases List.mem_map.mp member with ⟨original, kept, rfl⟩
    have candidate := List.mem_of_mem_take (List.mem_filter.mp kept).1
    rw [List.mem_insertionSort] at candidate
    rcases List.mem_filterMap.mp candidate with ⟨row, rowKept, made⟩
    rcases List.mem_filter.mp rowKept with ⟨rowIn, admitted⟩
    rcases Option.map_eq_some_iff.mp made with ⟨cosine, -, rfl⟩
    exact ⟨row, get_of_mem distinct rowIn, admitted, inForce_of_row row⟩

/-- The rerankers under the shortcut only rescore and reorder. -/
theorem PoolSound.innerRerank (engine : Engine σ) {hits : List (SearchHit σ)}
    (sound : PoolSound index admits today hits) (query : Text) (kind : InnerReranker) :
    PoolSound index admits today (engine.innerRerank query kind hits) := by
  apply sound.of_facts
  intro hit member
  cases kind with
  | status =>
      rw [Engine.innerRerank, Engine.statusRerank, Engine.byRank,
        List.mem_insertionSort] at member
      rcases List.mem_map.mp member with ⟨original, originalIn, rfl⟩
      exact ⟨original, originalIn, rfl⟩
  | hybrid =>
      rw [Engine.innerRerank, Engine.hybridRerank, Engine.byRank,
        List.mem_insertionSort] at member
      rcases List.mem_map.mp member with ⟨original, originalIn, rfl⟩
      exact ⟨original, originalIn, rfl⟩

theorem PoolSound.foldl_innerRerank (engine : Engine σ) {hits : List (SearchHit σ)}
    (sound : PoolSound index admits today hits) (query : Text) (kinds : List InnerReranker) :
    PoolSound index admits today
      (kinds.foldl (fun hits kind => engine.innerRerank query kind hits) hits) := by
  induction kinds generalizing hits with
  | nil => exact sound
  | cons kind rest ih => exact ih (sound.innerRerank engine query kind)

/-- The flag of a document survives the loss of its dates and its inbox mark. -/
def FlagSurvives (index : Index) (today : Date) (row : DocRow) : Prop :=
  index.inForce today row = true ∨ row.status ∉ inForceStatuses ∨
    index.graphExcluded today row.id = true

theorem ofDoc_inForce_iff {row : DocRow} {score : σ} :
    (SearchHit.ofDoc row score).facts.inForce index today = index.inForce today row ↔
      FlagSurvives index today row := by
  have excluded : decide (row.id ∉ index.excludedIds today) =
      !index.graphExcluded today row.id := by
    simp [Index.mem_excludedIds_iff]
  have fromStatus : (SearchHit.ofDoc row score).facts.inForce index today =
      (!index.graphExcluded today row.id && decide (row.status ∈ inForceStatuses)) := by
    change (decide (row.id ∉ index.excludedIds today) &&
      isInForce row.status none none today false) = _
    rw [excluded]
    by_cases inClass : row.status ∈ inForceStatuses
    · simp [isInForce, inClass]
    · simp [isInForce, inClass]
  rw [fromStatus, FlagSurvives, Index.inForce]
  cases graph : index.graphExcluded today row.id with
  | true => simp
  | false =>
      by_cases inClass : row.status ∈ inForceStatuses
      · cases row.inForce today <;> simp [inClass]
      · have notInForce : row.inForce today = false := by
          rw [← Bool.not_eq_true]
          intro inForce
          exact inClass (isInForce_iff.mp inForce).2.1
        simp [inClass, notInForce]

/-- The shortcut keeps a pool sound where the document it lifts passes the filters and
keeps its flag. -/
theorem PoolSound.shortcut (engine : Engine σ) {hits : List (SearchHit σ)}
    (sound : PoolSound index admits today hits) {query : Text}
    (safe : ∀ token row, Token.looksLikeId query = some token →
      index.get (PyStr.ofText token) = some row →
      admits row = true ∧ FlagSurvives index today row) :
    PoolSound index admits today (engine.shortcut index query hits) := by
  unfold Engine.shortcut
  split
  · rename_i row lifted
    rcases Option.bind_eq_some_iff.mp lifted with ⟨token, tokenOk, found⟩
    rcases safe token row tokenOk found with ⟨admitted, survives⟩
    intro hit member
    rcases List.mem_cons.mp member with rfl | rest
    · cases existing : hits.find? fun hit => hit.id = row.id with
      | some present =>
          rw [Option.getD_some]
          exact sound present (List.mem_of_find?_eq_some existing)
      | none =>
          rw [Option.getD_none]
          have named : row.id = PyStr.ofText token := by
            simpa using List.find?_some found
          rw [← named] at found
          exact ⟨row, found, admitted, ofDoc_inForce_iff.mpr survives⟩
    · exact sound hit (List.mem_filter.mp rest).1
  · split
    · exact sound
    · intro hit member
      rcases List.mem_append.mp member with tagged | untagged
      · exact sound hit (List.mem_filter.mp tagged).1
      · exact sound hit (List.mem_filter.mp untagged).1

end Sound

/-! ## Filter soundness -/

section Soundness

variable {σ : Type} (engine : Engine σ) (rerankers : Rerankers) (calendar : Calendar)
  (index : Index) (query : Text) (facets : Facets) (today : Date)

/-- The shortcut is not installed, or the query names no indexed document, or that
document passes the requested filters and its flag survives. -/
def ShortcutSafe : Prop :=
  rerankers.shortcut = true → ∀ token row admits, Token.looksLikeId query = some token →
    index.get (PyStr.ofText token) = some row →
    calendar.facetFilters index facets today = .ok admits →
    admits row = true ∧ FlagSurvives index today row

/-- The document of the hit passes the requested filters, is in force if that was
requested, and has the flag that is reported with the hit. -/
def SearchHitModel.Sound (model : SearchHitModel σ) : Prop :=
  ∃ got admits, kbGet index model.hit.id today = some got ∧
    calendar.facetFilters index facets today = .ok admits ∧ admits got.doc = true ∧
    (facets.inForce = true → got.inForce = true) ∧ model.inForce = got.inForce

variable {engine rerankers calendar index query facets today}

theorem PoolSound.rerank (engine : Engine σ) {admits : DocRow → Bool} {hits : List (SearchHit σ)}
    (sound : PoolSound index admits today hits)
    (safe : ShortcutSafe rerankers calendar index query facets today)
    (filters : calendar.facetFilters index facets today = .ok admits) :
    PoolSound index admits today (engine.rerank rerankers index query hits) := by
  have inner := sound.foldl_innerRerank engine query rerankers.inner
  unfold Engine.rerank
  by_cases installed : rerankers.shortcut = true
  · rw [if_pos installed]
    apply inner.shortcut engine
    intro token row tokenOk here
    exact safe installed token row admits tokenOk here filters
  · rw [if_neg installed]
    exact inner

/-- Every hit of a search is sound where the shortcut is safe. -/
theorem search_sound (distinct : (index.rows.map DocRow.id).Nodup)
    (safe : ShortcutSafe rerankers calendar index query facets today) {limit : Nat}
    {columns : Option (List String)} {hits : List (SearchHit σ)}
    (found : engine.search rerankers calendar index query limit facets columns today =
      .ok hits) :
    ∀ hit ∈ hits, ∃ admits, calendar.facetFilters index facets today = .ok admits ∧
      hit.facts.Sound index admits today := by
  intro hit member
  unfold Engine.search at found
  by_cases noTerms : ((primaryTerms query).isEmpty ||
      (engine.expandedTerms (primaryTerms query)).isEmpty) = true
  · rw [if_pos noTerms] at found
    cases found
    cases member
  · rw [if_neg noTerms] at found
    rcases Except.bind_eq_ok_iff.mp found with ⟨admits, filters, rest⟩
    refine ⟨admits, filters, ?_⟩
    by_cases failed : engine.unavailable = true
    · rw [if_pos failed] at rest
      cases rest
      cases member
    · rw [if_neg failed] at rest
      cases rest
      rcases List.mem_map.mp member with ⟨ranked, taken, rfl⟩
      have reranked := List.mem_of_mem_take taken
      exact (pool_sound engine distinct _ columns query _ _).rerank engine safe filters ranked
        reranked

/-- Every hit of a response is sound where the shortcut is safe. -/
theorem kbSearch_sound (distinct : (index.rows.map DocRow.id).Nodup)
    (safe : ShortcutSafe rerankers calendar index query facets today) {limit : Int}
    {abstain : Bool} {response : SearchResponse σ}
    (answered : kbSearch engine rerankers calendar index query limit facets abstain today =
      .ok response) :
    ∀ model ∈ response.hits, model.Sound calendar index facets today := by
  intro model member
  rcases Except.map_eq_ok_iff.mp answered with ⟨found, foundOk, rendered⟩
  unfold foundHits at foundOk
  have fromSearch : ∀ hits, found = some hits → ∃ columns,
      engine.search rerankers calendar index query (clampLimit limit) facets columns today =
        .ok hits := by
    intro hits here
    subst found
    by_cases gate : abstain = true
    · rw [if_pos gate, abstainGate] at foundOk
      by_cases blank : strip query = []
      · rw [if_pos blank] at foundOk
        cases foundOk
      · rw [if_neg blank] at foundOk
        rcases Except.bind_eq_ok_iff.mp foundOk with ⟨signal, -, rest⟩
        by_cases silent : signal.isEmpty = true
        · rw [if_pos silent] at rest
          cases rest
        · rw [if_neg silent] at rest
          rcases Except.bind_eq_ok_iff.mp rest with ⟨again, searched, same⟩
          cases same
          exact ⟨none, searched⟩
    · rw [if_neg gate] at foundOk
      rcases Except.map_eq_ok_iff.mp foundOk with ⟨again, searched, same⟩
      cases same
      exact ⟨none, searched⟩
  cases found with
  | none =>
      subst rendered
      cases member
  | some hits =>
      subst rendered
      rcases List.mem_map.mp member with ⟨hit, hitIn, rfl⟩
      rcases fromSearch hits rfl with ⟨columns, searched⟩
      rcases search_sound distinct safe searched hit hitIn with
        ⟨admits, filters, row, here, admitted, flag⟩
      refine ⟨⟨row, index.inForce today row, index.supersededBy hit.id⟩, admits, ?_, filters,
        admitted, ?_, flag⟩
      · have got : index.get hit.id = some row := here
        rw [kbGet, got, Option.map_some, Option.some.injEq, GetResponse.mk.injEq]
        exact ⟨rfl, inForce_of_row row, rfl⟩
      · intro requested
        exact calendar.inForce_of_facetFilters filters requested admitted

/-- The rules of a consult are in force where the intent names no document out of
force. -/
theorem kbConsult_inForce (distinct : (index.rows.map DocRow.id).Nodup)
    {governed : Text → Bool} {intent : Text} {limit : Int}
    (safe : ShortcutSafe rerankers calendar index (intent.take maxConsultIntentChars)
      Facets.consult today) {rules : List (SearchHitModel σ)}
    (consulted : kbConsult engine rerankers calendar index governed intent limit today =
      .ok rules) :
    ∀ model ∈ rules, model.inForce = true ∧
      ∃ got, kbGet index model.hit.id today = some got ∧ got.inForce = true := by
  intro model member
  unfold kbConsult at consulted
  by_cases isGoverned : governed (intent.take maxConsultIntentChars) = true
  · rw [if_pos isGoverned] at consulted
    rcases Except.map_eq_ok_iff.mp consulted with ⟨response, answered, rfl⟩
    rcases kbSearch_sound distinct safe answered model member with
      ⟨got, admits, gotOk, -, -, inForce, flag⟩
    have gotInForce := inForce rfl
    exact ⟨flag.trans gotInForce, got, gotOk, gotInForce⟩
  · rw [if_neg isGoverned] at consulted
    cases consulted
    cases member

end Soundness

/-! ## Where no pass matches -/

/-- An engine whose passes select nothing. -/
def Engine.silent : Engine Unit where
  zero := ()
  one := ()
  negativeInfinity := ()
  add _ _ := ()
  neg _ := ()
  le _ _ := true
  unavailable := false
  lower := id
  queryExpander := none
  fts _ _ _ := none
  trigram := none
  dense := none
  statusDelta _ := ()
  blended _ _ _ := ()

section Silent

variable {rerankers : Rerankers} {calendar : Calendar} {index : Index} {query : Text}
  {facets : Facets} {today : Date}

theorem silent_pool (admits : DocRow → Bool) (limit : Nat) (columns : Option (List String))
    (terms expansionTerms : List Text) :
    Engine.silent.pool index admits limit columns query terms expansionTerms = [] := by
  have selected : ∀ limit terms,
      Engine.silent.select index admits limit (Engine.silent.fts columns terms) = [] := by
    intro limit terms
    have nothing : (index.rows.filter admits).filterMap (fun row =>
        (Engine.silent.fts columns terms row).map fun result =>
          SearchHit.ofRow row result.1 result.2) = [] := by
      rw [List.filterMap_eq_nil_iff]
      intro row _
      rfl
    rw [Engine.select, nothing, Engine.byScore, List.insertionSort_nil, List.take_nil]
  unfold Engine.pool Engine.expansionBackfill
  rw [selected, selected]
  split
  · rfl
  · rfl

theorem silent_innerRerank (kinds : List InnerReranker) :
    kinds.foldl (fun hits kind => Engine.silent.innerRerank query kind hits) [] = [] := by
  induction kinds with
  | nil => rfl
  | cons kind rest ih =>
      cases kind with
      | status => exact ih
      | hybrid => exact ih

/-- The shortcut answers alone, with a document no filter has seen. -/
theorem silent_search (installed : rerankers.shortcut = true) {token : Text}
    (named : Token.looksLikeId query = some token) {row : DocRow}
    (here : index.get (PyStr.ofText token) = some row) {admits : DocRow → Bool}
    (filters : calendar.facetFilters index facets today = .ok admits) {limit : Nat}
    (positive : 1 ≤ limit) (columns : Option (List String)) :
    Engine.silent.search rerankers calendar index query limit facets columns today =
      .ok [{ SearchHit.ofDoc row () with supersededBy := index.supersededBy row.id }] := by
  have something : strip query ≠ [] := by
    intro blank
    simp [Token.looksLikeId, Token.single, blank] at named
  have terms : primaryTerms query ≠ [] := by
    rcases List.exists_cons_of_ne_nil (words_ne_nil_of_strip_ne_nil something) with
      ⟨word, rest, split⟩
    rw [primaryTerms, split, List.eraseDups_cons]
    simp [maxQueryTerms]
  have lifted : Engine.silent.rerank rerankers index query [] = [SearchHit.ofDoc row ()] := by
    unfold Engine.rerank
    rw [silent_innerRerank, if_pos installed]
    unfold Engine.shortcut
    rw [named, Option.bind_some, here]
    rfl
  unfold Engine.search
  rw [if_neg (by simpa [Engine.expandedTerms, Engine.silent] using terms), filters]
  change Except.ok (((Engine.silent.rerank rerankers index query
    (Engine.silent.pool index admits _ columns query _ _)).take limit).map _) = _
  rw [silent_pool, lifted, List.take_of_length_le positive]
  rfl

/-- Every hit of every response is sound, whatever the passes match, exactly when the
shortcut is safe. -/
theorem kbSearch_sound_iff {runtime : Runtime} {config : IndexConfig} {tree : Tree}
    (built : runtime.build config tree = .ok index) (limit : Int) (abstain : Bool) :
    (∀ (σ : Type) (engine : Engine σ) (response : SearchResponse σ),
      kbSearch engine rerankers calendar index query limit facets abstain today =
        .ok response →
      ∀ model ∈ response.hits, model.Sound calendar index facets today) ↔
      ShortcutSafe rerankers calendar index query facets today := by
  have distinct := runtime.row_id_nodup_of_build config built
  constructor
  · intro sound installed token row admits named here filters
    let hit : SearchHit Unit :=
      { SearchHit.ofDoc row () with supersededBy := index.supersededBy row.id }
    have clamped : 1 ≤ clampLimit limit := by
      unfold clampLimit
      omega
    have searched : ∀ columns, Engine.silent.search rerankers calendar index query
        (clampLimit limit) facets columns today = .ok [hit] :=
      silent_search installed named here filters clamped
    have something : strip query ≠ [] := by
      intro blank
      simp [Token.looksLikeId, Token.single, blank] at named
    have answered : kbSearch Engine.silent rerankers calendar index query limit facets abstain
        today = .ok ⟨[⟨hit, hit.facts.inForce index today⟩], false⟩ := by
      cases abstain with
      | true =>
          rw [kbSearch, foundHits, if_pos rfl, abstainGate, if_neg something, searched, searched]
          rfl
      | false =>
          rw [kbSearch, foundHits, if_neg Bool.false_ne_true, searched]
          rfl
    rcases sound Unit Engine.silent _ answered _ List.mem_cons_self with
      ⟨got, again, gotOk, filtersAgain, admitted, -, flag⟩
    have same : again = admits := by
      rw [filters, Except.ok.injEq] at filtersAgain
      exact filtersAgain.symm
    subst again
    have rowIn := List.mem_of_find?_eq_some here
    have gotRow : kbGet index row.id today = some got := gotOk
    rw [kbGet, get_of_mem distinct rowIn, Option.map_some, Option.some.injEq] at gotRow
    subst got
    have full : (SearchHit.ofDoc row ()).facts.inForce index today = index.inForce today row :=
      flag.trans (inForce_of_row row)
    exact ⟨admitted, ofDoc_inForce_iff.mp full⟩
  · intro safe σ engine response answered
    exact kbSearch_sound distinct safe answered

end Silent

/-- A calendar that reads no number and counts no days. -/
def Calendar.plain : Calendar where
  intOf _ := none
  addDays _ _ := none

/-- A query of one plain word only finds sound hits. -/
theorem plain_word_is_sound :
    ∃ index, (draftLoader "Ask" (PyStr.lit "Ask")).build IndexConfig.default
        (Tree.write ∅ rulePath (draft "Ask")) = .ok index ∧
      ∀ (σ : Type) (engine : Engine σ) (response : SearchResponse σ),
        kbSearch engine Rerankers.default Calendar.plain index "Ask".toList 20 Facets.consult
          false ⟨2026, 1, 1⟩ = .ok response →
        ∀ model ∈ response.hits,
          model.Sound Calendar.plain index Facets.consult ⟨2026, 1, 1⟩ := by
  have built : (draftLoader "Ask" (PyStr.lit "Ask")).build IndexConfig.default
      (Tree.write ∅ rulePath (draft "Ask")) = .ok _ := rfl
  refine ⟨_, built, (kbSearch_sound_iff built 20 false).mpr ?_⟩
  intro _ token row admits named
  have noId : Token.looksLikeId "Ask".toList = none := by decide
  rw [noId] at named
  cases named

/-- The id of a draft, asked for among the rules in force, returns the draft. -/
theorem id_query_returns_draft :
    ∃ index response row, (draftLoader "Ask" (PyStr.lit "Ask")).build IndexConfig.default
        (Tree.write ∅ rulePath (draft "Ask")) = .ok index ∧
      kbSearch Engine.silent Rerankers.default Calendar.plain index "decisions-rule".toList 20
        Facets.consult false ⟨2026, 1, 1⟩ = .ok response ∧
      (∃ model ∈ response.hits, model.hit.id = row.id) ∧ row ∈ index.rows ∧
      row.status = PyStr.lit "draft" ∧ index.inForce ⟨2026, 1, 1⟩ row = false := by
  refine ⟨_, _, _, rfl, rfl, ⟨_, List.mem_cons_self, rfl⟩, List.mem_cons_self, rfl, rfl⟩

end DataOlympus
