import DataOlympus.Search.Facets
import Mathlib.Data.List.Sort

/-!
# The search pipeline

`Index.search` gathers candidates in up to four passes, lets the rerankers reorder them
and cuts the list.  SQLite's matching, the embedding model, the query expander and the
arithmetic of scores are parameters; the passes, the rerankers of the server and the
exact-id shortcut are written out.
-/

namespace DataOlympus

open Lines

/-- One hit.  `backfill` is the lower of the two rank classes. -/
structure SearchHit (σ : Type) where
  id : PyStr
  path : RelPath
  title : PyStr
  snippet : PyStr
  score : σ
  status : PyStr
  docType : PyStr
  backfill : Bool
  validFrom : Option Date
  validUntil : Option Date
  recheckBy : Option Date
  lastVerified : Option Date
  isInbox : Bool
  supersededBy : List PyStr

/-- What a hit tells of its document when it is judged. -/
structure HitFacts where
  id : PyStr
  status : PyStr
  validFrom : Option Date
  validUntil : Option Date
  isInbox : Bool

namespace SearchHit

variable {σ : Type}

def facts (hit : SearchHit σ) : HitFacts :=
  ⟨hit.id, hit.status, hit.validFrom, hit.validUntil, hit.isInbox⟩

/-- The hit a pass makes of a row it selected. -/
def ofRow (row : DocRow) (score : σ) (snippet : PyStr) : SearchHit σ where
  id := row.id
  path := row.path
  title := row.title
  snippet := snippet
  score := score
  status := row.status
  docType := row.docType
  backfill := false
  validFrom := row.validFrom
  validUntil := row.validUntil
  recheckBy := row.recheckBy
  lastVerified := row.lastVerified
  isInbox := row.isInbox
  supersededBy := []

/-- `_hit_from_doc(doc)`: the dates and the inbox flag stay at their defaults. -/
def ofDoc (row : DocRow) (score : σ) : SearchHit σ where
  id := row.id
  path := row.path
  title := row.title
  snippet := row.description
  score := score
  status := row.status
  docType := row.docType
  backfill := false
  validFrom := none
  validUntil := none
  recheckBy := none
  lastVerified := none
  isInbox := false
  supersededBy := []

end SearchHit

/-- The dense candidate source. -/
structure Dense (σ : Type) where
  limit : Nat
  minCosine : σ
  /-- The cosine of the query and the stored vector of a document, where both exist. -/
  similarity : Text → PyStr → Option σ

/-- What the search calls but does not contain, and the arithmetic of scores. -/
structure Engine (σ : Type) where
  zero : σ
  one : σ
  negativeInfinity : σ
  add : σ → σ → σ
  neg : σ → σ
  le : σ → σ → Bool
  /-- A query of the pool raises `sqlite3.Error`. -/
  unavailable : Bool
  /-- `str.lower`. -/
  lower : Text → Text
  queryExpander : Option (List Text → List Text)
  /-- The rows an FTS match of the terms selects, with score and snippet; `columns`
  restricts the match. -/
  fts : Option (List String) → List Text → DocRow → Option (σ × PyStr)
  /-- The trigram fallback, with its threshold. -/
  trigram : Option (Nat × (Text → DocRow → Option σ))
  dense : Option (Dense σ)
  /-- The delta of the status reranker. -/
  statusDelta : PyStr → σ
  /-- The blended score of the hybrid reranker within a pool. -/
  blended : Text → List (SearchHit σ) → SearchHit σ → σ

/-- The rerankers under the shortcut. -/
inductive InnerReranker where
  | status
  | hybrid

/-- The installed rerankers, the innermost first. -/
structure Rerankers where
  inner : List InnerReranker
  /-- `make_id_tag_reranker` is installed outermost. -/
  shortcut : Bool

/-- The stack of `build_app` without embeddings. -/
def Rerankers.default : Rerankers :=
  ⟨[.status], true⟩

/-! ## Words and tokens -/

namespace Token

def isAlphanumeric (c : Char) : Bool :=
  c.isAlphanum

/-- One of `-`, `.`, `_` and `:`. -/
def isSeparator (c : Char) : Bool :=
  c = '-' || c = '.' || c = '_' || c = ':'

/-- The single token of a query, if it has no inner blank or tab. -/
def single (query : Text) : Option Text :=
  let token := strip query
  if token = [] || ' ' ∈ token || '\t' ∈ token then none else some token

/-- `_ID_TOKEN_RE`: two or more alphanumeric segments between separators. -/
def isId (token : Text) : Bool :=
  let segments := token.splitOnP isSeparator
  1 < segments.length && segments.all fun segment =>
    segment ≠ [] && segment.all isAlphanumeric

/-- `_TAG_TOKEN_RE`: an alphanumeric character, then more of them or separators. -/
def isTag : Text → Bool
  | [] => false
  | first :: rest =>
      isAlphanumeric first && rest.all fun c => isAlphanumeric c || isSeparator c

/-- `looks_like_id(query)`. -/
def looksLikeId (query : Text) : Option Text :=
  (single query).filter isId

/-- `looks_like_tag(query)`. -/
def looksLikeTag (query : Text) : Option Text :=
  (single query).filter isTag

end Token

/-- The number of a code point. -/
def CodePoint.number : CodePoint → Nat
  | scalar c => c.toNat
  | surrogate offset => 0xd800 + offset

/-- The order of Python strings. -/
def PyStr.le : PyStr → PyStr → Bool
  | [], _ => true
  | _ :: _, [] => false
  | first :: rest, other :: others =>
      first.number < other.number || first.number = other.number && PyStr.le rest others

namespace Index

/-- `idx.ids_with_exact_tag(tag)`. -/
def idsWithExactTag (index : Index) (tag : Text) : List PyStr :=
  (index.rows.filter fun row =>
    PyStr.ofText tag ∈ words PyStr.isSpaceAt row.tags).map DocRow.id

/-- `_superseded_by_map(…)` for one id: the union of its own `superseded_by` edge and of
the `supersedes` edges that target it, over indexed documents, in order. -/
def supersededBy (index : Index) (id : PyStr) : List PyStr :=
  let indexed (other : PyStr) : Bool := index.rows.any fun row => row.id = other
  let own := (index.edges.filter fun edge =>
    edge.relation = .supersededBy && edge.source = id && indexed edge.target).map Edge.target
  let reverse := (index.edges.filter fun edge =>
    edge.relation = .supersedes && edge.target = id && indexed edge.source).map Edge.source
  (own ++ reverse).dedup.insertionSort fun first second => PyStr.le first second = true

end Index

/-! ## The passes -/

namespace Engine

variable {σ : Type} (engine : Engine σ)

/-- Hits in ascending order of score, ties as they came. -/
def byScore (hits : List (SearchHit σ)) : List (SearchHit σ) :=
  hits.insertionSort fun first second => engine.le first.score second.score = true

/-- Hits in order of rank class, then of score. -/
def byRank (hits : List (SearchHit σ)) : List (SearchHit σ) :=
  hits.insertionSort fun first second =>
    (!first.backfill && second.backfill ||
      first.backfill = second.backfill && engine.le first.score second.score) = true

/-- The worst score of the hits, or zero. -/
def worst : List (SearchHit σ) → σ
  | [] => engine.zero
  | first :: rest =>
      rest.foldl (fun score hit => if engine.le score hit.score then hit.score else score)
        first.score

/-- One pass over the rows: those that a match selects and the filters admit. -/
def select (index : Index) (admits : DocRow → Bool) (limit : Nat)
    (found : DocRow → Option (σ × PyStr)) : List (SearchHit σ) :=
  (engine.byScore ((index.rows.filter admits).filterMap fun row =>
    (found row).map fun result => SearchHit.ofRow row result.1 result.2)).take limit

/-- The loop of a backfill pass: ids not seen before, each at a larger offset from the worst
score. -/
def appendFresh (worst offset : σ) (seenIds : List PyStr) :
    List (SearchHit σ) → List (SearchHit σ)
  | [] => []
  | hit :: rest =>
      if hit.id ∈ seenIds then appendFresh worst offset seenIds rest
      else
        { hit with score := engine.add worst offset, backfill := true } ::
          appendFresh worst (engine.add offset engine.one) (hit.id :: seenIds) rest

/-- The hits of a backfill pass behind the ones before it. -/
def backfillBehind (before found : List (SearchHit σ)) : List (SearchHit σ) :=
  before ++ engine.appendFresh (engine.worst before) engine.one (before.map SearchHit.id) found

/-- The expansion terms that are no primary terms, each once. -/
def freshTerms (seenTerms : List Text) : List Text → List Text
  | [] => []
  | term :: rest =>
      let low := engine.lower term
      if low ∈ seenTerms then freshTerms seenTerms rest
      else term :: freshTerms (low :: seenTerms) rest

/-- `_expansion_backfill(…)`, which only runs on expansion terms. -/
def expansionBackfill (index : Index) (admits : DocRow → Bool) (limit : Nat)
    (columns : Option (List String)) (terms : List Text) (before : List (SearchHit σ)) :
    List (SearchHit σ) :=
  if terms.isEmpty then before
  else engine.backfillBehind before (engine.select index admits limit (engine.fts columns terms))

/-- `_trigram_backfill(…)`, where it is enabled and few hits were found. -/
def trigramBackfill (index : Index) (admits : DocRow → Bool) (limit : Nat) (query : Text)
    (before : List (SearchHit σ)) : List (SearchHit σ) :=
  match engine.trigram with
  | none => before
  | some (threshold, found) =>
      if threshold < before.length then before
      else engine.backfillBehind before (engine.select index admits limit fun row =>
        (found query row).map fun score => (score, row.description))

/-- `dense_candidates(…)`. -/
def denseCandidates (dense : Dense σ) (index : Index) (admits : DocRow → Bool)
    (query : Text) : List (SearchHit σ) :=
  let scored := (index.rows.filter admits).filterMap fun row =>
    ((dense.similarity query row.id).filter fun cosine => engine.le dense.minCosine cosine).map
      fun cosine => SearchHit.ofRow row cosine row.description
  (scored.insertionSort fun first second =>
    engine.le (engine.neg first.score) (engine.neg second.score) = true).take dense.limit

/-- `_union_dense_candidates(…)`, where embeddings are configured. -/
def unionDense (index : Index) (admits : DocRow → Bool) (query : Text)
    (before : List (SearchHit σ)) : List (SearchHit σ) :=
  match engine.dense with
  | none => before
  | some dense =>
      let fresh := (engine.denseCandidates dense index admits query).filter fun hit =>
        hit.id ∉ before.map SearchHit.id
      before ++ fresh.map fun hit => { hit with score := engine.worst before }

/-! ## The rerankers -/

/-- The reranker of `make_status_reranker`. -/
def statusRerank (hits : List (SearchHit σ)) : List (SearchHit σ) :=
  engine.byRank (hits.map fun hit =>
    { hit with score := engine.add hit.score (engine.statusDelta hit.status) })

/-- The reranker of `make_hybrid_reranker`. -/
def hybridRerank (query : Text) (hits : List (SearchHit σ)) : List (SearchHit σ) :=
  engine.byRank (hits.map fun hit =>
    { hit with score := engine.neg (engine.blended query hits hit) })

def innerRerank (query : Text) : InnerReranker → List (SearchHit σ) → List (SearchHit σ)
  | .status, hits => engine.statusRerank hits
  | .hybrid, hits => engine.hybridRerank query hits

/-- The reranker of `make_id_tag_reranker` without its inner one. -/
def shortcut (index : Index) (query : Text) (hits : List (SearchHit σ)) :
    List (SearchHit σ) :=
  match (Token.looksLikeId query).bind fun token => index.get (PyStr.ofText token) with
  | some row =>
      let top := (hits.find? fun hit => hit.id = row.id).getD
        (SearchHit.ofDoc row engine.negativeInfinity)
      top :: hits.filter fun hit => hit.id ≠ row.id
  | none =>
      match Token.looksLikeTag query with
      | none => hits
      | some tag =>
          let taggedIds := index.idsWithExactTag tag
          hits.filter (fun hit => hit.id ∈ taggedIds) ++
            hits.filter fun hit => hit.id ∉ taggedIds

/-- The installed rerankers, one after the other. -/
def rerank (rerankers : Rerankers) (index : Index) (query : Text)
    (hits : List (SearchHit σ)) : List (SearchHit σ) :=
  let reordered := rerankers.inner.foldl (fun hits kind => engine.innerRerank query kind hits)
    hits
  if rerankers.shortcut then engine.shortcut index query reordered else reordered

end Engine

/-! ## The search -/

/-- `MAX_QUERY_TERMS`. -/
def maxQueryTerms : Nat := 64

/-- The words of a query, each once, up to the bound. -/
def primaryTerms (query : Text) : List Text :=
  (words isSpace query).eraseDups.take maxQueryTerms

/-- How many candidates each pass may return. -/
def candidateLimit (rerankers : Rerankers) (limit : Nat) : Nat :=
  if rerankers.inner.isEmpty && !rerankers.shortcut then limit
  else max limit (min (max (limit * 5) 50) 200)

namespace Engine

variable {σ : Type} (engine : Engine σ)

/-- The candidates before any reranker sees them. -/
def pool (index : Index) (admits : DocRow → Bool) (limit : Nat)
    (columns : Option (List String)) (query : Text) (terms expansionTerms : List Text) :
    List (SearchHit σ) :=
  let primary := engine.select index admits limit (engine.fts columns terms)
  let expanded := engine.expansionBackfill index admits limit columns expansionTerms primary
  let filled := engine.trigramBackfill index admits limit
    ([' '].intercalate terms) expanded
  engine.unionDense index admits query filled

/-- The primary terms as the query expander returns them. -/
def expandedTerms (terms : List Text) : List Text :=
  match engine.queryExpander with
  | none => terms
  | some expand => expand terms

/-- `idx.search(…)`. -/
def search (rerankers : Rerankers) (calendar : Calendar) (index : Index) (query : Text)
    (limit : Nat) (facets : Facets) (columns : Option (List String)) (today : Date) :
    Except SearchError (List (SearchHit σ)) :=
  let terms := primaryTerms query
  if terms.isEmpty || (engine.expandedTerms terms).isEmpty then .ok []
  else do
    let admits ← calendar.facetFilters index facets today
    if engine.unavailable then return []
    else
      let expansionTerms := engine.freshTerms (terms.map engine.lower)
        (engine.expandedTerms terms)
      let hits := engine.pool index admits (candidateLimit rerankers limit) columns query
        terms expansionTerms
      return ((engine.rerank rerankers index query hits).take limit).map fun hit =>
        { hit with supersededBy := index.supersededBy hit.id }

end Engine

end DataOlympus
