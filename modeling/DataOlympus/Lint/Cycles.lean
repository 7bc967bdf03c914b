import DataOlympus.Control.Except
import DataOlympus.Lint.Bundle
import DataOlympus.Search.Columns
import Mathlib.Tactic.Tauto

/-!
# Cycles the linter reports

Every document that is told of a cycle lies on one.  The converse fails: a document on a
cycle may be told of none, when all its edges lead to documents that the search has left.
What the linter does promise is that no cycle goes unreported as a whole, since every
cycle has two neighboring documents that are told of one cycle.
-/

namespace DataOlympus.Lint

open Lines Python

/-! ## The search over a graph of ids -/

@[simp]
theorem mem_sortedIds {ids : List PyStr} {id : PyStr} : id ∈ sortedIds ids ↔ id ∈ ids := by
  simp [sortedIds]

theorem IdGraph.edge_iff {graph : IdGraph} {source target : PyStr} :
    DepthFirst.Edge graph.neighbors source target ↔ (source, target) ∈ graph := by
  simp only [DepthFirst.Edge, neighbors, mem_sortedIds, List.mem_map, List.mem_filter,
    decide_eq_true_eq]
  constructor
  · rintro ⟨⟨_, _⟩, ⟨member, rfl⟩, rfl⟩
    exact member
  · intro member
    exact ⟨_, ⟨member, rfl⟩, rfl⟩

/-- The search ends.  Its cycles are real, and no cycle avoids their closing edges. -/
theorem exists_findCycles (graph : IdGraph) :
    ∃ cycles, findCycles graph = some cycles ∧
      (∀ cycle ∈ cycles, DepthFirst.IsCycle graph.neighbors cycle) ∧
      ∀ node ∈ graph.map Prod.fst, DepthFirst.Settled graph.neighbors cycles node := by
  have closed : ∀ source ∈ graph.map Prod.fst ++ graph.map Prod.snd,
      graph.neighbors source ⊆ graph.map Prod.fst ++ graph.map Prod.snd := by
    intro source _ target member
    have edge := IdGraph.edge_iff.mp member
    exact List.mem_append_right _ (List.mem_map_of_mem (f := Prod.snd) edge)
  have starts : sortedIds (graph.map Prod.fst) ⊆ graph.map Prod.fst ++ graph.map Prod.snd := by
    intro node member
    exact List.mem_append_left _ (mem_sortedIds.mp member)
  rcases DepthFirst.exists_searchFrom_start closed (Nat.le_refl _) starts with
    ⟨search, found, real, settled⟩
  refine ⟨search.cycles, ?_, real, fun node member => settled node (mem_sortedIds.mpr member)⟩
  rw [findCycles, found]
  rfl

/-- Every cycle of the graph has an edge with both ends on one cycle that is reported. -/
theorem exists_reported {graph : IdGraph} {cycles : List (List PyStr)}
    (found : findCycles graph = some cycles) {cycle : List PyStr}
    (real : DepthFirst.IsCycle graph.neighbors cycle) :
    ∃ before source target after, cycle = before ++ source :: target :: after ∧
      ∃ reported ∈ cycles, source ∈ reported.dropLast ∧ target ∈ reported.dropLast := by
  rcases exists_findCycles graph with ⟨_, same, isReal, settled⟩
  rw [found] at same
  cases same
  have settledHere : ∀ node ∈ cycle, DepthFirst.Settled graph.neighbors cycles node := by
    intro node member
    rcases List.exists_mem_of_ne_nil _ (real.next_ne_nil member) with ⟨target, edge⟩
    exact settled node (List.mem_map_of_mem (f := Prod.fst) (IdGraph.edge_iff.mp edge))
  rcases real.exists_closes settledHere with ⟨before, source, target, after, split, closes⟩
  rcases closes.exists_mem with ⟨reported, member, sourceIn, targetIn⟩
  exact ⟨before, source, target, after, split, reported, member,
    (isReal reported member).mem_dropLast.mpr sourceIn,
    (isReal reported member).mem_dropLast.mpr targetIn⟩

/-- A node of a cycle is reached from itself. -/
theorem transGen_of_isCycle {graph : IdGraph} {cycle : List PyStr} {id : PyStr}
    (real : DepthFirst.IsCycle graph.neighbors cycle) (member : id ∈ cycle.dropLast) :
    Relation.TransGen (fun source target => (source, target) ∈ graph) id id := by
  rcases real with ⟨first, inner, rfl, chain⟩
  rw [List.dropLast_concat] at member
  have edges : (first :: inner ++ [first]).IsChain fun source target => (source, target) ∈ graph :=
    chain.imp fun _ _ => IdGraph.edge_iff.mp
  cases member with
  | head => exact DepthFirst.transGen_of_isChain edges
  | tail _ later =>
      rcases List.append_of_mem later with ⟨before, after, rfl⟩
      have whole : first :: (before ++ id :: after) ++ [first] =
          (first :: before ++ [id]) ++ (after ++ [first]) := by simp
      have ahead : first :: (before ++ id :: after) ++ [first] =
          (first :: before) ++ (id :: after ++ [first]) := by simp
      have reaches := DepthFirst.transGen_of_isChain (whole ▸ edges).left_of_append
      have returns := DepthFirst.transGen_of_isChain (ahead ▸ edges).right_of_append
      exact returns.trans reaches

/-! ## The relations between documents -/

/-- "A supersedes B": A lists B, or B names A, and the named document is in the bundle. -/
def Supersedes (paths : Dict PyStr RelPath) (relations : Relations) (first second : PyStr) :
    Prop :=
  second ≠ first ∧
    ((∃ targets, relations.supersedesById.get first = some targets ∧ second ∈ targets ∧
        (paths.get second).isSome = true) ∨
      relations.supersededByById.get second = some first ∧ (paths.get first).isSome = true)

/-- "A derives from B", and B is in the bundle. -/
def DerivesFrom (paths : Dict PyStr RelPath) (relations : Relations) (first second : PyStr) :
    Prop :=
  second ≠ first ∧ ∃ targets, relations.derivedFromById.get first = some targets ∧
    second ∈ targets ∧ (paths.get second).isSome = true

theorem mem_targetPairs {targets : Dict PyStr (List PyStr)} {first second : PyStr} :
    (first, second) ∈ targetPairs targets ↔
      ∃ listed, targets.get first = some listed ∧ second ∈ listed := by
  simp only [targetPairs, List.mem_flatMap, List.mem_map, Prod.mk.injEq]
  constructor
  · rintro ⟨⟨_, listed⟩, member, _, here, rfl, rfl⟩
    exact ⟨listed, Dict.get_eq_some_iff.mpr member, here⟩
  · rintro ⟨listed, found, here⟩
    exact ⟨(first, listed), Dict.get_eq_some_iff.mp found, second, here, rfl, rfl⟩

theorem mem_known {paths : Dict PyStr RelPath} {graph : IdGraph}
    {target : PyStr × PyStr → PyStr} {edge : PyStr × PyStr} :
    edge ∈ known paths graph target ↔
      edge ∈ graph ∧ edge.2 ≠ edge.1 ∧ (paths.get (target edge)).isSome = true := by
  simp [known]

theorem mem_supersessionGraph {paths : Dict PyStr RelPath} {relations : Relations}
    {first second : PyStr} :
    (first, second) ∈ supersessionGraph paths relations ↔
      Supersedes paths relations first second := by
  have swapped : (first, second) ∈ relations.supersededByById.items.map Prod.swap ↔
      relations.supersededByById.get second = some first := by
    rw [Dict.get_eq_some_iff, ← Prod.swap_prod_mk, List.mem_map_of_injective Prod.swap_injective]
  simp only [supersessionGraph, List.mem_append, mem_known, mem_targetPairs, swapped]
  constructor
  · rintro (⟨⟨listed, found, here⟩, other, named⟩ | ⟨found, other, named⟩)
    · exact ⟨other, .inl ⟨listed, found, here, named⟩⟩
    · exact ⟨other, .inr ⟨found, named⟩⟩
  · rintro ⟨other, ⟨listed, found, here, named⟩ | ⟨found, named⟩⟩
    · exact .inl ⟨⟨listed, found, here⟩, other, named⟩
    · exact .inr ⟨found, other, named⟩

theorem mem_derivationGraph {paths : Dict PyStr RelPath} {relations : Relations}
    {first second : PyStr} :
    (first, second) ∈ derivationGraph paths relations ↔
      DerivesFrom paths relations first second := by
  rw [derivationGraph, mem_known, mem_targetPairs]
  constructor
  · rintro ⟨⟨listed, found, here⟩, other, named⟩
    exact ⟨other, listed, found, here, named⟩
  · rintro ⟨other, listed, found, here, named⟩
    exact ⟨⟨listed, found, here⟩, other, named⟩

/-! ## Ids that have a document -/

/-- Every id with relations is the id of a document of the bundle. -/
structure Relations.Known (paths : Dict PyStr RelPath) (relations : Relations) : Prop where
  supersedes : ∀ id targets, relations.supersedesById.get id = some targets →
    (paths.get id).isSome = true
  supersededBy : ∀ id target, relations.supersededByById.get id = some target →
    (paths.get id).isSome = true
  derivedFrom : ∀ id targets, relations.derivedFromById.get id = some targets →
    (paths.get id).isSome = true

theorem isSome_enterId {paths : Dict PyStr RelPath} {doc : RelPath × Mapping} {id : PyStr}
    (known : (paths.get id).isSome = true ∨ usableId doc.2 = some id) :
    ((enterId paths doc).get id).isSome = true := by
  unfold enterId
  cases usable : usableId doc.2 with
  | none => simpa [usable] using known
  | some other =>
      simp only
      by_cases same : id = other
      · subst same
        split
        · assumption
        · rw [Dict.get_set]
          rfl
      · have here : (paths.get id).isSome = true := by
          rcases known with here | named
          · exact here
          · rw [usable] at named
            exact absurd (Option.some.inj named).symm same
        split
        · exact here
        · rwa [Dict.get_set_of_ne _ _ same]

/-- The id of every document of the bundle is known. -/
theorem isSome_idToPath {docs : Docs} {doc : RelPath × Mapping} (member : doc ∈ docs) {id : PyStr}
    (named : usableId doc.2 = some id) : ((idToPath docs).get id).isSome = true := by
  have entered : ∀ (rest : Docs) (paths : Dict PyStr RelPath),
      (paths.get id).isSome = true ∨ doc ∈ rest →
        ((rest.foldl enterId paths).get id).isSome = true := by
    intro rest
    induction rest with
    | nil => simp
    | cons first rest ih =>
        intro paths found
        apply ih
        rcases found with here | member
        · exact .inl (isSome_enterId (.inl here))
        · rcases List.mem_cons.mp member with rfl | later
          · exact .inl (isSome_enterId (.inr named))
          · exact .inr later
  exact entered docs Dict.empty (.inr member)

theorem Relations.Known.visit {runtime : LintRuntime} {options : Options} {today : Date}
    {paths : Dict PyStr RelPath} {relations further : Relations} {doc : RelPath × Mapping}
    (known : relations.Known paths)
    (named : ∀ id, usableId doc.2 = some id → (paths.get id).isSome = true)
    (visited : relations.visit runtime options today doc = .ok further) :
    further.Known paths := by
  unfold Relations.visit at visited
  split at visited
  · cases visited
    exact known
  · rename_i id usable
    rcases Except.bind_eq_ok_iff.mp visited with ⟨status, -, made⟩
    cases made
    have here := named id usable
    constructor
    · intro other targets found
      by_cases same : other = id
      · exact same ▸ here
      · exact known.supersedes other targets (by rwa [Dict.get_set_of_ne _ _ same] at found)
    · intro other target found
      by_cases same : other = id
      · exact same ▸ here
      · apply known.supersededBy other target
        simp only at found
        split at found
        · rwa [Dict.get_set_of_ne _ _ same] at found
        · exact found
    · intro other targets found
      by_cases same : other = id
      · exact same ▸ here
      · exact known.derivedFrom other targets (by rwa [Dict.get_set_of_ne _ _ same] at found)

theorem known_relationsOf {runtime : LintRuntime} {options : Options} {docs : Docs} {today : Date}
    {relations : Relations} (related : relationsOf runtime options docs today = .ok relations) :
    relations.Known (idToPath docs) := by
  have start : Relations.empty.Known (idToPath docs) :=
    ⟨fun _ _ found => by simp [Relations.empty, Dict.empty, Dict.get] at found,
      fun _ _ found => by simp [Relations.empty, Dict.empty, Dict.get] at found,
      fun _ _ found => by simp [Relations.empty, Dict.empty, Dict.get] at found⟩
  exact Except.foldlM_induction start
    (fun _ _ doc member known visited => known.visit
      (fun _ usable => isSome_idToPath member usable) visited) related

/-! ## What the other findings say -/

/-- A message that starts like no message about a cycle. -/
def Plain (message : PyStr) : Prop :=
  ∃ first ∈ message.head?, first ≠ .scalar 's' ∧ first ≠ .scalar 'd'

theorem Plain.append {message : PyStr} (plain : Plain message) (rest : PyStr) :
    Plain (message ++ rest) := by
  rcases plain with ⟨first, here, other⟩
  refine ⟨first, ?_, other⟩
  rw [List.head?_append, here]
  exact Option.mem_some_self first

theorem plain_quoted (s : PyStr) : Plain (quoted s) :=
  Plain.append (Plain.append ⟨.scalar (Char.ofNat 39), rfl, by decide, by decide⟩ s) _

theorem plain_lit_append {first : String} (plain : Plain (PyStr.lit first)) (rest : String) :
    Plain (PyStr.lit (first ++ rest)) := by
  rw [PyStr.lit, String.toList_append, PyStr.ofText, List.map_append]
  exact Plain.append plain _

def Report.Plain (report : Report) : Prop :=
  ∀ item ∈ report, Lint.Plain item.2.message

theorem Report.Plain.append {first second : Report} (plain : first.Plain) (rest : second.Plain) :
    (first ++ second).Plain := by
  intro item member
  exact (List.mem_append.mp member).elim (plain item) (rest item)

theorem Report.plain_flatMap {α : Type*} {items : List α} {findings : α → Report}
    (plain : ∀ item ∈ items, (findings item).Plain) : (Report.Plain (items.flatMap findings)) := by
  intro finding member
  rcases List.mem_flatMap.mp member with ⟨item, here, found⟩
  exact plain item here finding found

theorem Report.plain_ite {condition : Prop} [Decidable condition] {first second : Report}
    (plain : first.Plain) (rest : second.Plain) :
    (Report.Plain (if condition then first else second)) := by
  split
  · exact plain
  · exact rest

theorem Report.plain_nil : Report.Plain [] :=
  fun _ member => absurd member List.not_mem_nil

theorem mem_told {paths : Dict PyStr RelPath} {id : PyStr} {finding found : Finding}
    {path : RelPath} :
    (path, found) ∈ told paths id finding ↔ paths.get id = some path ∧ found = finding := by
  simp only [told, Option.mem_toList, Option.map_eq_some_iff, Prod.mk.injEq]
  constructor
  · rintro ⟨_, here, rfl, rfl⟩
    exact ⟨here, rfl⟩
  · rintro ⟨here, rfl⟩
    exact ⟨path, here, rfl, rfl⟩

theorem plain_told {paths : Dict PyStr RelPath} {id : PyStr} {finding : Finding}
    (plain : Plain finding.message) : (told paths id finding).Plain := by
  rintro ⟨path, found⟩ member
  rw [(mem_told.mp member).2]
  exact plain

section Messages

variable (runtime : LintRuntime) (options : Options) (paths : Dict PyStr RelPath)
  (relations : Relations) (today : Date)

theorem plain_targetFindings (field : String) (target : PyStr) :
    ∀ finding ∈ targetFindings runtime options paths field target, Plain finding.message := by
  have opens (rest : String) : Plain (PyStr.lit ("'" ++ field ++ rest)) :=
    plain_lit_append (plain_lit_append ⟨.scalar (Char.ofNat 39), rfl, by decide, by decide⟩ _) _
  have named : Plain (PyStr.lit ("'" ++ field ++ "' value ") ++ runtime.repr target ++
      PyStr.lit (" looks like a file path, not a stable concept id; " ++
        "use the target document's `id` instead")) := ((opens _).append _).append _
  intro finding member
  unfold targetFindings at member
  split at member
  · split at member
    · cases List.mem_singleton.mp member
      exact named
    · cases member
  · split at member
    · cases List.mem_singleton.mp member
      dsimp only
      split
      · exact named
      · exact ((opens _).append _).append _
    · cases List.mem_singleton.mp member
      exact ((((opens _).append _).append _).append _).append _

theorem plain_referenceFindings (entries : Mapping) :
    ∀ finding ∈ referenceFindings runtime options paths entries, Plain finding.message := by
  have malformed (field expected : String) (bad : Bool) :
      ∀ finding ∈ toldMalformed field expected bad, Plain finding.message := by
    intro finding member
    unfold toldMalformed at member
    split at member
    · cases List.mem_singleton.mp member
      exact plain_lit_append (plain_lit_append (plain_lit_append
        ⟨.scalar 'm', rfl, by decide, by decide⟩ _) _) _
    · cases member
  intro finding member
  simp only [referenceFindings, List.mem_append, List.mem_flatMap] at member
  rcases member with (((member | member) | member) | member) | ⟨field, -, target, -, member⟩
  · exact malformed _ _ _ finding member
  · exact malformed _ _ _ finding member
  · exact malformed _ _ _ finding member
  · exact malformed _ _ _ finding member
  · exact plain_targetFindings runtime options paths field.1 target finding member

theorem plain_selfFindings (graph : IdGraph) (field verb : String) :
    (selfFindings paths graph field verb).Plain :=
  Report.plain_flatMap fun id _ => plain_told ((plain_quoted id).append _)

theorem plain_asymmetryFindings : (asymmetryFindings paths relations).Plain := by
  unfold asymmetryFindings
  apply Report.Plain.append <;> refine Report.plain_flatMap fun edge _ => ?_
  all_goals
    apply Report.plain_ite Report.plain_nil
    apply plain_told
    repeat first | exact plain_quoted _ | apply Plain.append

theorem plain_statusFindings : (statusFindings runtime paths relations).Plain := by
  unfold statusFindings
  apply Report.Plain.append <;> refine Report.plain_flatMap fun item _ => ?_
  all_goals
    refine Report.plain_ite (plain_told ?_) Report.plain_nil
    repeat first | exact plain_quoted _ | apply Plain.append

theorem plain_contradictionFindings : (contradictionFindings runtime paths relations).Plain := by
  unfold contradictionFindings
  refine Report.plain_flatMap fun edge _ => ?_
  apply Report.Plain.append
  · apply plain_told
    repeat first | exact plain_quoted _ | apply Plain.append
  · apply Report.plain_ite Report.plain_nil
    apply plain_told
    repeat first | exact plain_quoted _ | apply Plain.append

theorem plain_mixedFindings : (mixedFindings paths relations).Plain := by
  refine Report.plain_flatMap fun edge _ => plain_told ?_
  repeat first | exact plain_quoted _ | apply Plain.append

theorem plain_retiredFindings : (retiredFindings runtime paths relations today).Plain := by
  unfold retiredFindings
  apply Report.Plain.append <;> refine Report.plain_flatMap fun item _ => plain_told ?_
  all_goals repeat first | exact plain_quoted _ | apply Plain.append

end Messages

/-! ## Cycles in the report -/

/-- The finding is about a cycle of the relation. -/
def Finding.TellsOf (finding : Finding) (what : String) : Prop :=
  PyStr.lit (what ++ " cycle detected: ") <+: finding.message

/-- Only documents on a cycle are told of one, and every cycle has two neighbors that are
told of one and the same. -/
structure ReportsCycles (paths : Dict PyStr RelPath) (report : Report) (what : String)
    (relation : PyStr → PyStr → Prop) : Prop where
  real : ∀ path finding, (path, finding) ∈ report → finding.TellsOf what →
    ∃ id, paths.get id = some path ∧ Relation.TransGen relation id id
  met : ∀ first inner, (first :: inner ++ [first]).IsChain relation →
    ∃ before source target after,
      first :: inner ++ [first] = before ++ source :: target :: after ∧
      ∃ finding, finding.TellsOf what ∧ finding.severity = .error ∧
        ∀ id ∈ [source, target], ∃ path, paths.get id = some path ∧ (path, finding) ∈ report

/-- What the search finds is what the findings tell. -/
theorem mem_cycleFindings {paths : Dict PyStr RelPath} {field what : String} {graph : IdGraph}
    {path : RelPath} {finding : Finding} :
    (path, finding) ∈ cycleFindings paths field what graph ↔
      ∃ cycles, findCycles graph = some cycles ∧ ∃ cycle ∈ cycles, ∃ member ∈ cycle.dropLast,
        paths.get member = some path ∧ finding = cycleFinding field what cycle := by
  rcases exists_findCycles graph with ⟨cycles, found, -⟩
  simp only [cycleFindings, found, Option.getD_some, List.mem_flatMap, mem_told,
    Option.some.injEq, exists_eq_left']

/-- The findings on one graph, among others that say nothing of its cycles. -/
theorem ReportsCycles.of_graph {paths : Dict PyStr RelPath} {field what : String}
    {graph : IdGraph} {relation : PyStr → PyStr → Prop} {report others : Report}
    (edges : ∀ first second, (first, second) ∈ graph ↔ relation first second)
    (named : ∀ first second, relation first second → (paths.get first).isSome = true)
    (holds : ∀ item, item ∈ report ↔ item ∈ cycleFindings paths field what graph ∨ item ∈ others)
    (silent : ∀ item ∈ others, ¬item.2.TellsOf what) :
    ReportsCycles paths report what relation := by
  have same : (fun first second => (first, second) ∈ graph) = relation :=
    funext fun first => funext fun second => propext (edges first second)
  rcases exists_findCycles graph with ⟨cycles, found, real, -⟩
  constructor
  · intro path finding member tells
    rcases (holds _).mp member with here | other
    · rcases mem_cycleFindings.mp here with ⟨_, again, cycle, reported, id, onCycle, at', -⟩
      rw [found] at again
      cases again
      exact ⟨id, at', same ▸ transGen_of_isCycle (real cycle reported) onCycle⟩
    · exact absurd tells (silent _ other)
  · intro first inner chain
    have isCycle : DepthFirst.IsCycle graph.neighbors (first :: inner ++ [first]) :=
      ⟨first, inner, rfl, chain.imp fun source target related =>
        IdGraph.edge_iff.mpr ((edges source target).mpr related)⟩
    rcases exists_reported found isCycle with
      ⟨before, source, target, after, split, cycle, reported, sourceOn, targetOn⟩
    refine ⟨before, source, target, after, split, cycleFinding field what cycle,
      List.prefix_append _ _, rfl, ?_⟩
    have told (id : PyStr) (onCycle : id ∈ cycle.dropLast) :
        ∃ path, paths.get id = some path ∧ (path, cycleFinding field what cycle) ∈ report := by
      rcases Relation.TransGen.head'_iff.mp
        (transGen_of_isCycle (real cycle reported) onCycle) with ⟨next, edge, -⟩
      rcases Option.isSome_iff_exists.mp (named id next ((edges id next).mp edge)) with
        ⟨path, here⟩
      exact ⟨path, here, (holds _).mpr (.inl (mem_cycleFindings.mpr
        ⟨cycles, found, cycle, reported, id, onCycle, here, rfl⟩))⟩
    intro id member
    rcases List.mem_cons.mp member with rfl | member
    · exact told id sourceOn
    · exact List.mem_singleton.mp member ▸ told target targetOn

theorem Plain.not_tellsOf {finding : Finding} (plain : Plain finding.message) :
    ¬finding.TellsOf "supersession" ∧ ¬finding.TellsOf "derivation" := by
  rcases plain with ⟨first, here, notS, notD⟩
  have opens (letter : Char) (rest : PyStr) (starts : .scalar letter :: rest <+: finding.message) :
      first = .scalar letter := by
    rcases starts with ⟨more, made⟩
    rw [← made] at here
    exact (Option.some.inj here).symm
  exact ⟨fun tells => notS (opens 's' _ tells), fun tells => notD (opens 'd' _ tells)⟩

/-- One of the two kinds of cycles is not the other. -/
theorem not_tellsOf_cycleFinding {field what other : String} {cycle : List PyStr}
    (different : (PyStr.lit (what ++ " cycle detected: ")).head? ≠
      (PyStr.lit (other ++ " cycle detected: ")).head?)
    (opens : PyStr.lit (what ++ " cycle detected: ") ≠ [])
    (opensOther : PyStr.lit (other ++ " cycle detected: ") ≠ []) :
    ¬(cycleFinding field what cycle).TellsOf other := by
  rintro ⟨more, made⟩
  apply different
  have heads := congrArg List.head? made
  rw [cycleFinding, List.head?_append_of_ne_nil _ opens,
    List.head?_append_of_ne_nil _ opensOther] at heads
  exact heads.symm

/-- A report of these findings and of others that say nothing of cycles. -/
def Report.PlainBut (cycles report : Report) : Prop :=
  ∃ others : Report, others.Plain ∧ ∀ item, item ∈ report ↔ item ∈ cycles ∨ item ∈ others

theorem Report.Plain.plainBut {report : Report} (plain : report.Plain) :
    Report.PlainBut [] report :=
  ⟨report, plain, fun item => by simp⟩

theorem Report.plainBut_self (report : Report) : Report.PlainBut report report :=
  ⟨[], nofun, fun item => by simp⟩

theorem Report.PlainBut.append {first second cycles further : Report}
    (plain : Report.PlainBut cycles first) (rest : Report.PlainBut further second) :
    Report.PlainBut (cycles ++ further) (first ++ second) := by
  rcases plain with ⟨others, plainOthers, holds⟩
  rcases rest with ⟨more, plainMore, holdsMore⟩
  refine ⟨others ++ more, plainOthers.append plainMore, fun item => ?_⟩
  rw [List.mem_append, List.mem_append, List.mem_append, holds, holdsMore]
  tauto

/-- The findings of a cross-file check that say nothing of cycles. -/
theorem exists_plain_findings (runtime : LintRuntime) (options : Options)
    (paths : Dict PyStr RelPath) (docs : Docs) (relations : Relations) (today : Date) :
    ∃ others : Report, others.Plain ∧ ∀ item,
      item ∈ docs.flatMap (fun doc =>
          (referenceFindings runtime options paths doc.2).map fun finding => (doc.1, finding)) ++
        relationFindings runtime paths relations today ↔
      item ∈ cycleFindings paths "supersedes" "supersession" (supersessionGraph paths relations) ∨
        item ∈ cycleFindings paths "derived_from" "derivation"
          (derivationGraph paths relations) ∨ item ∈ others := by
  have references : Report.Plain (docs.flatMap fun doc =>
      (referenceFindings runtime options paths doc.2).map fun finding => (doc.1, finding)) := by
    apply Report.plain_flatMap
    rintro doc - item member
    rcases List.mem_map.mp member with ⟨finding, here, rfl⟩
    exact plain_referenceFindings runtime options paths doc.2 finding here
  have selves : Report.Plain ((relations.supersededByById.items.filter fun edge =>
      edge.2 = edge.1).map Prod.fst |>.flatMap fun id => told paths id ⟨.error, "superseded_by",
        quoted id ++ PyStr.lit " cannot be superseded by itself"⟩) :=
    Report.plain_flatMap fun id _ => plain_told ((plain_quoted id).append _)
  have supersedesItself := plain_selfFindings paths (selfTargets relations.supersedesById)
    "supersedes" "supersede"
  have derivesFromItself := plain_selfFindings paths (selfTargets relations.derivedFromById)
    "derived_from" "derive from"
  have derivation := ((derivesFromItself.plainBut.append (Report.plainBut_self
    (cycleFindings paths "derived_from" "derivation" (derivationGraph paths relations)))).append
    (plain_mixedFindings paths relations).plainBut).append
    (plain_retiredFindings runtime paths relations today).plainBut
  have supersession := (supersedesItself.plainBut.append selves.plainBut).append
    (Report.plainBut_self (cycleFindings paths "supersedes" "supersession"
      (supersessionGraph paths relations)))
  have all := references.plainBut.append ((((supersession.append
    (plain_asymmetryFindings paths relations).plainBut).append
    (plain_statusFindings runtime paths relations).plainBut).append
    (plain_contradictionFindings runtime paths relations).plainBut).append derivation)
  rcases all with ⟨others, plain, holds⟩
  refine ⟨others, plain, fun item => (holds item).trans ?_⟩
  simp only [List.nil_append, List.append_nil, List.mem_append, or_assoc]

/-- The linter's cycle errors on supersession and on derivation. -/
theorem crossFileFindings_reportsCycles {runtime : LintRuntime} {options : Options} {docs : Docs}
    {today : Date} {report : Report}
    (linted : crossFileFindings runtime options docs today = .ok report) :
    ∃ relations, relationsOf runtime options docs today = .ok relations ∧
      ReportsCycles (idToPath docs) report "supersession" (Supersedes (idToPath docs) relations) ∧
      ReportsCycles (idToPath docs) report "derivation"
        (DerivesFrom (idToPath docs) relations) := by
  rcases Except.bind_eq_ok_iff.mp linted with ⟨relations, related, made⟩
  cases made
  have known := known_relationsOf related
  rcases exists_plain_findings runtime options (idToPath docs) docs relations today with
    ⟨others, plain, holds⟩
  refine ⟨relations, related, ?_, ?_⟩
  · apply ReportsCycles.of_graph (fun _ _ => mem_supersessionGraph) _
      (fun item => (holds item).trans (or_congr_right List.mem_append.symm))
    · rintro item member
      rcases List.mem_append.mp member with derivation | other
      · rcases mem_cycleFindings.mp derivation with ⟨_, -, cycle, -, _, -, -, made⟩
        rw [made]
        exact not_tellsOf_cycleFinding (by decide) (by decide) (by decide)
      · exact (plain item other).not_tellsOf.1
    · rintro first second ⟨-, ⟨targets, found, -⟩ | ⟨-, named⟩⟩
      · exact known.supersedes first targets found
      · exact named
  · apply ReportsCycles.of_graph (fun _ _ => mem_derivationGraph) _
      (fun item => (holds item).trans (or_left_comm.trans (or_congr_right List.mem_append.symm)))
    · rintro item member
      rcases List.mem_append.mp member with supersession | other
      · rcases mem_cycleFindings.mp supersession with ⟨_, -, cycle, -, _, -, -, made⟩
        rw [made]
        exact not_tellsOf_cycleFinding (by decide) (by decide) (by decide)
      · exact (plain item other).not_tellsOf.2
    · rintro first second ⟨-, targets, found, -⟩
      exact known.derivedFrom first targets found

/-- Two rules that supersede each other, and a third that supersedes both. -/
def mutualRules : Docs :=
  [(⟨["a.md".toList], by decide, by decide⟩,
      [(.str (PyStr.lit "id"), .str (PyStr.lit "a")),
        (.str (PyStr.lit "supersedes"), .str (PyStr.lit "b"))]),
    (⟨["b.md".toList], by decide, by decide⟩,
      [(.str (PyStr.lit "id"), .str (PyStr.lit "b")),
        (.str (PyStr.lit "supersedes"), .list [.str (PyStr.lit "a")])]),
    (⟨["c.md".toList], by decide, by decide⟩,
      [(.str (PyStr.lit "id"), .str (PyStr.lit "c")),
        (.str (PyStr.lit "supersedes"), .list [.str (PyStr.lit "a"), .str (PyStr.lit "b")])])]

def plainRuntime : LintRuntime where
  toRuntime := successionRuntime
  casefold s := s
  repr := quoted

def plainOptions : Options where
  external := []
  unresolvedAreErrors := true
  rooted := false
  inboxPrefix := "memory/inbox/".toList
  classifyByPath _ := ("meta".toList, "meta".toList)

theorem crossFileFindings_reportsCycles_mutualRules :
    ∃ report relations, ReportsCycles (idToPath mutualRules) report "supersession"
      (Supersedes (idToPath mutualRules) relations) := by
  have linted : crossFileFindings plainRuntime plainOptions mutualRules ⟨2026, 1, 1⟩ = .ok _ := rfl
  rcases crossFileFindings_reportsCycles linted with ⟨relations, -, cycles, -⟩
  exact ⟨_, relations, cycles⟩

end DataOlympus.Lint
