import DataOlympus.Gate.GovernedLane

/-!
# In force in a tree

Whether a document of a tree is in force, without building the index: its own row
is in force and no document in force supersedes its id.  An index built from the tree
gives the same answer.
-/

namespace DataOlympus


namespace Runtime

variable (runtime : Runtime) (config : IndexConfig)

/-- A document of the tree that is in force supersedes `id`. -/
def SupersededIn (tree : Tree) (id : PyStr) (today : Date) : Prop :=
  ∃ path file, runtime.DocumentAt tree path file ∧
    (file.row config).inForce today = true ∧ id ∈ file.doc.supersedes

/-- The document at `path` is in force in the tree. -/
def TreeInForce (tree : Tree) (path : RelPath) (today : Date) : Prop :=
  ∃ file, runtime.DocumentAt tree path file ∧ (file.row config).inForce today = true ∧
    ¬runtime.SupersededIn config tree file.docId today

theorem mem_supersedes_edges {file : ParsedFile} {edge : Edge} :
    edge ∈ file.edges ∧ edge.relation = .supersedes ↔
      edge.relation = .supersedes ∧ edge.source = file.docId ∧
        edge.target ∈ file.doc.supersedes := by
  rcases edge with ⟨source, relation, target⟩
  simp only [ParsedFile.edges, List.mem_append, List.mem_map, Edge.mk.injEq]
  constructor
  · rintro ⟨((⟨other, member, rfl, -, rfl⟩ | ⟨other, -, -, rfl, -⟩) | ⟨other, -, -, rfl, -⟩) |
      ⟨other, -, -, rfl, -⟩, kind⟩
    · exact ⟨kind, rfl, member⟩
    · cases kind
    · cases kind
    · cases kind
  · rintro ⟨rfl, rfl, member⟩
    exact ⟨.inl (.inl (.inl ⟨target, member, rfl, rfl, rfl⟩)), rfl⟩

theorem DocumentAt.rel {runtime : Runtime} {tree : Tree} {path : RelPath}
    {file : ParsedFile} (document : runtime.DocumentAt tree path file) : file.rel = path := by
  rcases document with ⟨-, committed, -, parsed⟩
  exact runtime.parseFile_rel parsed

/-- The index excludes an id exactly when a document in force supersedes it. -/
theorem graphExcluded_iff {tree : Tree} {files : List ParsedFile}
    (parsed : runtime.parseTree tree = .ok files) (distinct : runtime.DistinctIds tree)
    {file : ParsedFile} (fileIn : file ∈ files) {today : Date} :
    (Index.ofFiles config files).graphExcluded today file.docId = true ↔
      runtime.SupersededIn config tree file.docId today := by
  simp only [Index.graphExcluded, Index.ofFiles, List.any_eq_true, Bool.and_eq_true,
    decide_eq_true_eq, List.mem_flatMap, List.mem_map]
  constructor
  · rintro ⟨edge, ⟨source, sourceIn, edgeIn⟩, ⟨⟨kind, target⟩, row,
      ⟨other, otherIn, rfl⟩, sameId, inForce⟩, -⟩
    have edgeFacts := (mem_supersedes_edges.mp ⟨edgeIn, kind⟩).2
    have otherDocument := (runtime.mem_parseTree_iff parsed).mp otherIn
    have sourceDocument := (runtime.mem_parseTree_iff parsed).mp sourceIn
    have sameRel : other.rel = source.rel :=
      distinct _ _ _ _ otherDocument sourceDocument (Eq.trans sameId edgeFacts.1)
    have sameFile : other = source :=
      List.inj_on_of_nodup_map (runtime.rel_nodup_of_parseTree parsed) otherIn sourceIn
        sameRel
    subst other
    exact ⟨source.rel, source, sourceDocument, inForce, target ▸ edgeFacts.2⟩
  · rintro ⟨path, source, document, inForce, member⟩
    have rel := document.rel
    subst path
    have sourceIn := (runtime.mem_parseTree_iff parsed).mpr document
    let edge : Edge := ⟨source.docId, .supersedes, file.docId⟩
    have edgeFacts : edge ∈ source.edges ∧ edge.relation = .supersedes :=
      mem_supersedes_edges.mpr ⟨rfl, rfl, member⟩
    exact ⟨edge, ⟨source, sourceIn, edgeFacts.1⟩, ⟨⟨rfl, rfl⟩, _, ⟨source, sourceIn, rfl⟩,
      rfl, inForce⟩, _, ⟨file, fileIn, rfl⟩, rfl⟩

/-- The index built from a tree judges a document the way the tree itself does. -/
theorem built_inForce_iff {tree : Tree} {index : Index}
    (built : runtime.build config tree = .ok index) {path : RelPath} {today : Date} :
    (∃ row ∈ index.rows, row.path = path ∧ index.inForce today row = true) ↔
      runtime.TreeInForce config tree path today := by
  rcases runtime.exists_files_of_build config built with ⟨files, parsed, rfl, distinct⟩
  constructor
  · rintro ⟨row, rowIn, rfl, inForce⟩
    rcases List.mem_map.mp rowIn with ⟨file, fileIn, rfl⟩
    simp only [Index.inForce, Bool.and_eq_true, Bool.not_eq_true'] at inForce
    refine ⟨file, (runtime.mem_parseTree_iff parsed).mp fileIn, inForce.2, ?_⟩
    intro excluded
    have flagged := (runtime.graphExcluded_iff config parsed distinct fileIn).mpr excluded
    exact Bool.false_ne_true (inForce.1.symm.trans flagged)
  · rintro ⟨file, document, inForce, notExcluded⟩
    have rel := document.rel
    subst path
    have fileIn := (runtime.mem_parseTree_iff parsed).mpr document
    refine ⟨file.row config, List.mem_map.mpr ⟨file, fileIn, rfl⟩, rfl, ?_⟩
    simp only [Index.inForce, Bool.and_eq_true, Bool.not_eq_true']
    refine ⟨?_, inForce⟩
    rw [← Bool.not_eq_true]
    intro flagged
    exact notExcluded ((runtime.graphExcluded_iff config parsed distinct fileIn).mp flagged)

end Runtime

end DataOlympus
