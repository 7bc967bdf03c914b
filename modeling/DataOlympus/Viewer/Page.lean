import DataOlympus.Python.Dict
import DataOlympus.Viewer.Payload

/-!
# The viewer's page

`generate_visualization` prints the documents of a bundle, their links and their bodies into a
script of the page.  The element ends at the template's own end tag unless the strings of the
bundle hold a comment mark and a script tag behind it that nothing closes, and the script makes
the bundle's data unless a document is called `__proto__`.
-/

namespace DataOlympus.Viewer

open Lines Html Python

/-! ## The bundle -/

/-- An element of a file name as `os.fsdecode` reads it. -/
def isFsPoint : CodePoint → Bool
  | .surrogate offset => 0x480 ≤ offset.val && offset.val < 0x500
  | .scalar _ => true

/-- A document that was loaded, and the concepts its body links to. -/
structure ViewerDocument where
  id : PyStr
  title : PyStr
  docType : PyStr
  description : PyStr
  body : PyStr
  links : List PyStr

/-- A bundle.  The id of a document is its path. -/
structure Bundle where
  displayName : Text
  documents : List ViewerDocument
  named : ∀ document ∈ documents, document.id.all isFsPoint = true

/-- A dictionary of strings. -/
abbrev Fields := List (PyStr × PyStr)

/-- The node of a document. -/
def ViewerDocument.node (document : ViewerDocument) : Fields :=
  [(PyStr.lit "id", document.id), (PyStr.lit "title", document.title),
    (PyStr.lit "type", document.docType), (PyStr.lit "description", document.description)]

/-- The edge between two documents. -/
def edgeFields (edge : PyStr × PyStr) : Fields :=
  [(PyStr.lit "source", edge.1), (PyStr.lit "target", edge.2)]

/-- A link makes an edge once, between two different documents. -/
def addEdge (nodeIds : List PyStr) (srcId : PyStr) (edges : List (PyStr × PyStr))
    (tgtId : PyStr) : List (PyStr × PyStr) :=
  if tgtId = srcId ∨ tgtId ∉ nodeIds then edges
  else if (srcId, tgtId) ∈ edges then edges
  else edges ++ [(srcId, tgtId)]

namespace Bundle

variable (bundle : Bundle)

def nodeIds : List PyStr :=
  bundle.documents.map ViewerDocument.id

def bodies : Dict PyStr PyStr :=
  bundle.documents.foldl (fun bodies document => bodies.set document.id document.body) Dict.empty

def linksById : Dict PyStr (List PyStr) :=
  bundle.documents.foldl (fun links document => links.set document.id document.links) Dict.empty

def edges : List (PyStr × PyStr) :=
  bundle.linksById.items.foldl
    (fun edges item => item.2.foldl (addEdge bundle.nodeIds item.1) edges) []

def nodes : List Fields :=
  bundle.documents.map ViewerDocument.node

end Bundle

/-! ## The page -/

/-- A dictionary of strings as it is printed. -/
def dumpsFields (fields : Fields) : Text :=
  dumpsObject (fields.map fun field => (field.1, dumpsStr field.2))

/-- `json.dumps(bundle_data)`. -/
def Bundle.dumps (bundle : Bundle) : Text :=
  dumpsObject
    [(PyStr.lit "name", dumpsStr (PyStr.ofText bundle.displayName)),
      (PyStr.lit "nodes", dumpsArray (bundle.nodes.map dumpsFields)),
      (PyStr.lit "edges", dumpsArray ((bundle.edges.map edgeFields).map dumpsFields)),
      (PyStr.lit "bodies", dumpsFields bundle.bodies.items)]

/-- `json.dumps(bundle_data).replace("</", "<\\/")`. -/
def Bundle.jsonStr (bundle : Bundle) : Text :=
  escapeClose bundle.dumps

/-- What the template has behind the end tag of the data script. -/
structure Template where
  viewer : Text

/-- The content of the data script. -/
def Bundle.content (bundle : Bundle) : Text :=
  "\nwindow.__BUNDLE_DATA__ = ".toList ++ (bundle.jsonStr ++ ";\n".toList)

/-- What the page has behind the data script's end tag. -/
def Template.remainder (template : Template) : Text :=
  "</script>".toList ++ template.viewer

/-- The page from the content of the data script on. -/
def dataScript (template : Template) (bundle : Bundle) : Text :=
  bundle.content ++ template.remainder

/-! ## What a script should make of the bundle -/

/-- A dictionary of strings. -/
def fieldsValue (fields : Fields) : JsValue :=
  .obj none (fields.map fun field => (utf16 field.1, .str (utf16 field.2)))

/-- `bundle_data`. -/
def Bundle.value (bundle : Bundle) : JsValue :=
  .obj none
    [(utf16 (PyStr.lit "name"), .str (utf16 (PyStr.ofText bundle.displayName))),
      (utf16 (PyStr.lit "nodes"), .arr (bundle.nodes.map fieldsValue)),
      (utf16 (PyStr.lit "edges"), .arr ((bundle.edges.map edgeFields).map fieldsValue)),
      (utf16 (PyStr.lit "bodies"), fieldsValue bundle.bodies.items)]

/-- The strings of a dictionary. -/
def fieldStrings (fields : Fields) : List PyStr :=
  fields.flatMap fun field => [field.1, field.2]

/-- The strings of the bundle's data, in their order. -/
def Bundle.strings (bundle : Bundle) : List PyStr :=
  [PyStr.lit "name", PyStr.ofText bundle.displayName, PyStr.lit "nodes"] ++
    bundle.nodes.flatMap fieldStrings ++ PyStr.lit "edges" ::
      (bundle.edges.map edgeFields).flatMap fieldStrings ++ PyStr.lit "bodies" ::
        fieldStrings bundle.bodies.items

/-- What the tokenizer sees of some strings, each behind its quote. -/
def seen (strings : List PyStr) : Text :=
  strings.flatMap fun s => '"' :: shown s

/-! ## Names of files in a script -/

/-- An element of a file name by its units. -/
theorem units_cases {point : CodePoint} (named : isFsPoint point = true) :
    (∃ n, units point = [n] ∧ ¬(0xd800 ≤ n ∧ n < 0xdc00) ∧ point = CodePoint.ofNat n) ∨
      ∃ high low, units point = [high, low] ∧ (0xd800 ≤ high ∧ high < 0xdc00) ∧
        point = .scalar (Char.ofNat (0x10000 + (high - 0xd800) * 0x400 + (low - 0xdc00))) := by
  cases point with
  | surrogate offset =>
      have range := Bool.and_eq_true_iff.mp named
      have low : 0x480 ≤ offset.val := of_decide_eq_true range.1
      exact .inl ⟨0xd800 + offset, rfl, by omega, (ofNat_surrogate offset.isLt).symm⟩
  | scalar c =>
      have valid := toNat_valid c
      rw [units]
      split
      · exact .inl ⟨c.toNat, rfl, by omega, (ofNat_scalar c).symm⟩
      · refine .inr ⟨_, _, rfl, ⟨by omega, by omega⟩, ?_⟩
        have whole : 0x10000 + (0xd800 + (c.toNat - 0x10000) / 0x400 - 0xd800) * 0x400 +
            (0xdc00 + (c.toNat - 0x10000) % 0x400 - 0xdc00) = c.toNat := by omega
        rw [whole, Char.ofNat_toNat]

/-- Different names stay different. -/
theorem utf16_injective {first second : PyStr} (left : first.all isFsPoint = true)
    (right : second.all isFsPoint = true) (same : utf16 first = utf16 second) :
    first = second := by
  have nonempty : ∀ {point : CodePoint} {rest : PyStr}, isFsPoint point = true →
      utf16 (point :: rest) ≠ [] := by
    intro point rest named nothing
    obtain ⟨nil, _⟩ := List.append_eq_nil_iff.mp nothing
    obtain ⟨n, written, _⟩ | ⟨high, low, written, _⟩ := units_cases named
    · rw [nil] at written
      cases written
    · rw [nil] at written
      cases written
  induction first generalizing second with
  | nil =>
      cases second with
      | nil => rfl
      | cons point second =>
          obtain ⟨there, _⟩ := Bool.and_eq_true_iff.mp right
          exact absurd same.symm (nonempty there)
  | cons point first ih =>
      obtain ⟨here, left⟩ := Bool.and_eq_true_iff.mp left
      cases second with
      | nil => exact absurd same (nonempty here)
      | cons other second =>
          obtain ⟨there, right⟩ := Bool.and_eq_true_iff.mp right
          change units point ++ utf16 first = units other ++ utf16 second at same
          obtain ⟨n, written, no_high, eq⟩ | ⟨high, low, written, range, eq⟩ := units_cases here
          · obtain ⟨m, second_written, _, second_eq⟩ |
              ⟨high, low, second_written, range, second_eq⟩ := units_cases there
            · rw [written, second_written] at same
              obtain ⟨rfl, rest⟩ := List.cons.inj same
              rw [eq, second_eq, ih left right rest]
            · rw [written, second_written] at same
              obtain ⟨rfl, _⟩ := List.cons.inj same
              exact absurd range no_high
          · obtain ⟨m, second_written, no_high, second_eq⟩ |
              ⟨high', low', second_written, _, second_eq⟩ := units_cases there
            · rw [written, second_written] at same
              obtain ⟨rfl, _⟩ := List.cons.inj same
              exact absurd range no_high
            · rw [written, second_written] at same
              obtain ⟨rfl, tails⟩ := List.cons.inj same
              obtain ⟨rfl, rest⟩ := List.cons.inj tails
              rw [eq, second_eq, ih left right rest]

variable {bundle : Bundle}

theorem mem_bodies_iff {id : PyStr} :
    id ∈ bundle.bodies.items.map Prod.fst ↔ id ∈ bundle.nodeIds := by
  have folded : ∀ (documents : List ViewerDocument) (bodies : Dict PyStr PyStr),
      id ∈ (documents.foldl (fun bodies document => bodies.set document.id document.body)
        bodies).items.map Prod.fst ↔
      id ∈ bodies.items.map Prod.fst ∨ id ∈ documents.map ViewerDocument.id := by
    intro documents
    induction documents with
    | nil => simp
    | cons document documents ih =>
        intro bodies
        have keys : id ∈ (bodies.set document.id document.body).items.map Prod.fst ↔
            id ∈ bodies.items.map Prod.fst ∨ id = document.id := by
          simp only [List.mem_map, Prod.exists, exists_and_right, exists_eq_right, Dict.mem_set]
          constructor
          · rintro ⟨body, ⟨same, _⟩ | ⟨_, here⟩⟩
            · exact .inr same
            · exact .inl ⟨body, here⟩
          · rintro (⟨body, here⟩ | same)
            · by_cases same : id = document.id
              · exact ⟨_, .inl ⟨same, rfl⟩⟩
              · exact ⟨body, .inr ⟨same, here⟩⟩
            · exact ⟨_, .inl ⟨same, rfl⟩⟩
        rw [List.foldl_cons, ih, keys, List.map_cons, List.mem_cons, or_assoc]
  rw [Bundle.bodies, folded]
  simp [Dict.empty, Bundle.nodeIds]

theorem named_of_mem {id : PyStr} (member : id ∈ bundle.nodeIds) : id.all isFsPoint = true := by
  obtain ⟨document, here, rfl⟩ := List.mem_map.mp member
  exact bundle.named document here

/-! ## The script -/

/-- The entries of a dictionary of strings in a script. -/
def entriesOf (fields : Fields) : List (List Nat × JsValue) :=
  fields.map fun field => (utf16 field.1, .str (utf16 field.2))

theorem denotes_dumpsFields (fields : Fields) :
    Denotes 1 (dumpsFields fields) (objectOf (entriesOf fields)) := by
  let entries : List Entry :=
    fields.map fun field => (field.1, dumpsStr field.2, .str (utf16 field.2))
  have whole : Denotes 1 (dumpsObject (entries.map fun entry => (entry.1, entry.2.1)))
      (objectOf (entries.map fun entry => (utf16 entry.1, entry.2.2))) := by
    apply denotes_dumpsObject
    intro entry member
    obtain ⟨field, _, rfl⟩ := List.mem_map.mp member
    exact denotes_dumpsStr field.2
  rw [List.map_map, List.map_map] at whole
  exact whole

theorem denotes_of_distinct {fields : Fields} (distinct : ((entriesOf fields).map Prod.fst).Nodup)
    (no_proto : ∀ entry ∈ entriesOf fields, entry.1 ≠ protoKey) :
    Denotes 1 (dumpsFields fields) (fieldsValue fields) := by
  have denotes := denotes_dumpsFields fields
  rwa [objectOf_of_distinct distinct no_proto] at denotes

theorem denotes_node (document : ViewerDocument) :
    Denotes 1 (dumpsFields document.node) (fieldsValue document.node) := by
  have keys : (entriesOf document.node).map Prod.fst =
      ["id", "title", "type", "description"].map fun key => utf16 (PyStr.lit key) := rfl
  apply denotes_of_distinct
  · rw [keys]
    decide
  · intro entry member same
    have among := List.mem_map_of_mem (f := Prod.fst) member
    rw [keys, same] at among
    revert among
    decide

theorem denotes_edgeFields (edge : PyStr × PyStr) :
    Denotes 1 (dumpsFields (edgeFields edge)) (fieldsValue (edgeFields edge)) := by
  have keys : (entriesOf (edgeFields edge)).map Prod.fst =
      ["source", "target"].map fun key => utf16 (PyStr.lit key) := rfl
  apply denotes_of_distinct
  · rw [keys]
    decide
  · intro entry member same
    have among := List.mem_map_of_mem (f := Prod.fst) member
    rw [keys, same] at among
    revert among
    decide

/-- A list of printed dictionaries. -/
theorem denotes_dumpsAll {items : List Fields}
    (denotes : ∀ fields ∈ items, Denotes 1 (dumpsFields fields) (fieldsValue fields)) :
    Denotes 2 (dumpsArray (items.map dumpsFields)) (.arr (items.map fieldsValue)) := by
  let printed : List (Text × JsValue) :=
    items.map fun fields => (dumpsFields fields, fieldsValue fields)
  have whole : Denotes 2 (dumpsArray (printed.map Prod.fst)) (.arr (printed.map Prod.snd)) := by
    apply denotes_dumpsArray
    intro item member
    obtain ⟨fields, here, rfl⟩ := List.mem_map.mp member
    exact denotes fields here
  rw [List.map_map, List.map_map] at whole
  exact whole

/-- What a script makes of the bundle's data. -/
theorem evaluate_dumps (bundle : Bundle) :
    evaluate bundle.dumps = some (.obj none
      [(utf16 (PyStr.lit "name"), .str (utf16 (PyStr.ofText bundle.displayName))),
        (utf16 (PyStr.lit "nodes"), .arr (bundle.nodes.map fieldsValue)),
        (utf16 (PyStr.lit "edges"), .arr ((bundle.edges.map edgeFields).map fieldsValue)),
        (utf16 (PyStr.lit "bodies"), objectOf (entriesOf bundle.bodies.items))]) := by
  let entries : List Entry :=
    [(PyStr.lit "name", dumpsStr (PyStr.ofText bundle.displayName),
        .str (utf16 (PyStr.ofText bundle.displayName))),
      (PyStr.lit "nodes", dumpsArray (bundle.nodes.map dumpsFields),
        .arr (bundle.nodes.map fieldsValue)),
      (PyStr.lit "edges", dumpsArray ((bundle.edges.map edgeFields).map dumpsFields),
        .arr ((bundle.edges.map edgeFields).map fieldsValue)),
      (PyStr.lit "bodies", dumpsFields bundle.bodies.items,
        objectOf (entriesOf bundle.bodies.items))]
  have nodes : Denotes 2 (dumpsArray (bundle.nodes.map dumpsFields))
      (.arr (bundle.nodes.map fieldsValue)) := by
    apply denotes_dumpsAll
    intro fields member
    obtain ⟨document, _, rfl⟩ := List.mem_map.mp member
    exact denotes_node document
  have edges : Denotes 2 (dumpsArray ((bundle.edges.map edgeFields).map dumpsFields))
      (.arr ((bundle.edges.map edgeFields).map fieldsValue)) := by
    apply denotes_dumpsAll
    intro fields member
    obtain ⟨edge, _, rfl⟩ := List.mem_map.mp member
    exact denotes_edgeFields edge
  have bodies : Denotes 2 (dumpsFields bundle.bodies.items)
      (objectOf (entriesOf bundle.bodies.items)) :=
    (denotes_dumpsFields bundle.bodies.items).mono (by decide)
  have denotes : ∀ entry ∈ entries, Denotes 2 entry.2.1 entry.2.2 := by
    simp only [entries, List.forall_mem_cons]
    exact ⟨(denotes_dumpsStr _).mono (Nat.zero_le 2), nodes, edges, bodies, List.forall_mem_nil _⟩
  have whole : Denotes 3 bundle.dumps
      (objectOf (entries.map fun entry => (utf16 entry.1, entry.2.2))) :=
    denotes_dumpsObject denotes
  have keys : (entries.map fun entry => (utf16 entry.1, entry.2.2)).map Prod.fst =
      ["name", "nodes", "edges", "bodies"].map fun key => utf16 (PyStr.lit key) := rfl
  have object := @objectOf_of_distinct (entries.map fun entry => (utf16 entry.1, entry.2.2))
    (by rw [keys]; decide) (by
      intro entry member same
      have among := List.mem_map_of_mem (f := Prod.fst) member
      rw [keys, same] at among
      revert among
      decide)
  rw [object] at whole
  apply evaluate_of_denotes whole
  exact Nat.succ_le_succ (Nat.succ_le_succ (Nat.succ_le_succ (Nat.zero_le _)))

/-- The script makes the bundle's data of its literal unless a document is called
`__proto__`. -/
theorem evaluate_jsonStr_iff (bundle : Bundle) :
    evaluate bundle.jsonStr = some bundle.value ↔ PyStr.lit "__proto__" ∉ bundle.nodeIds := by
  have keys : (entriesOf bundle.bodies.items).map Prod.fst =
      (bundle.bodies.items.map Prod.fst).map utf16 := by
    rw [entriesOf, List.map_map, List.map_map]
    rfl
  have named : ∀ id ∈ bundle.bodies.items.map Prod.fst, id.all isFsPoint = true := by
    intro id member
    exact named_of_mem (mem_bodies_iff.mp member)
  have distinct : ((entriesOf bundle.bodies.items).map Prod.fst).Nodup := by
    rw [keys]
    apply bundle.bodies.once.map_on
    intro first left second right same
    exact utf16_injective (named first left) (named second right) same
  rw [Bundle.jsonStr, evaluate_escapeClose (evaluate_dumps bundle)]
  have split : some (JsValue.obj none
      [(utf16 (PyStr.lit "name"), .str (utf16 (PyStr.ofText bundle.displayName))),
        (utf16 (PyStr.lit "nodes"), .arr (bundle.nodes.map fieldsValue)),
        (utf16 (PyStr.lit "edges"), .arr ((bundle.edges.map edgeFields).map fieldsValue)),
        (utf16 (PyStr.lit "bodies"), objectOf (entriesOf bundle.bodies.items))]) =
      some bundle.value ↔
        objectOf (entriesOf bundle.bodies.items) = .obj none (entriesOf bundle.bodies.items) := by
    simp [Bundle.value, fieldsValue, entriesOf]
  rw [split, objectOf_eq_iff distinct, ← mem_bodies_iff]
  constructor
  · intro no_proto member
    have among : protoKey ∈ (entriesOf bundle.bodies.items).map Prod.fst := by
      rw [keys]
      exact List.mem_map_of_mem member
    obtain ⟨entry, here, same⟩ := List.mem_map.mp among
    exact no_proto entry here same
  · intro absent entry here same
    have among : protoKey ∈ (bundle.bodies.items.map Prod.fst).map utf16 := by
      rw [← keys, ← same]
      exact List.mem_map_of_mem here
    obtain ⟨id, member, equal⟩ := List.mem_map.mp among
    have proto : id = PyStr.lit "__proto__" :=
      utf16_injective (named id member) (by decide) equal
    exact absent (proto ▸ member)

/-! ## The element -/

theorem acts_dumpsFields (fields : Fields) : Acts (dumpsFields fields) (fieldStrings fields) := by
  let entries : List (PyStr × Text × List PyStr) :=
    fields.map fun field => (field.1, dumpsStr field.2, [field.2])
  have whole : Acts (dumpsObject (entries.map fun entry => (entry.1, entry.2.1)))
      (entries.flatMap fun entry => entry.1 :: entry.2.2) := by
    apply acts_dumpsObject
    intro entry member
    obtain ⟨field, _, rfl⟩ := List.mem_map.mp member
    exact acts_dumpsStr field.2
  rw [List.map_map, List.flatMap_map] at whole
  exact whole

theorem acts_dumpsAll (items : List Fields) :
    Acts (dumpsArray (items.map dumpsFields)) (items.flatMap fieldStrings) := by
  let printed : List (Text × List PyStr) :=
    items.map fun fields => (dumpsFields fields, fieldStrings fields)
  have whole : Acts (dumpsArray (printed.map Prod.fst)) (printed.flatMap Prod.snd) := by
    apply acts_dumpsArray
    intro item member
    obtain ⟨fields, _, rfl⟩ := List.mem_map.mp member
    exact acts_dumpsFields fields
  rw [List.map_map, List.flatMap_map] at whole
  exact whole

theorem acts_dumps (bundle : Bundle) : Acts bundle.dumps bundle.strings := by
  let entries : List (PyStr × Text × List PyStr) :=
    [(PyStr.lit "name", dumpsStr (PyStr.ofText bundle.displayName),
        [PyStr.ofText bundle.displayName]),
      (PyStr.lit "nodes", dumpsArray (bundle.nodes.map dumpsFields),
        bundle.nodes.flatMap fieldStrings),
      (PyStr.lit "edges", dumpsArray ((bundle.edges.map edgeFields).map dumpsFields),
        (bundle.edges.map edgeFields).flatMap fieldStrings),
      (PyStr.lit "bodies", dumpsFields bundle.bodies.items, fieldStrings bundle.bodies.items)]
  have acts : ∀ entry ∈ entries, Acts entry.2.1 entry.2.2 := by
    simp only [entries, List.forall_mem_cons]
    exact ⟨acts_dumpsStr _, acts_dumpsAll _, acts_dumpsAll _, acts_dumpsFields _,
      List.forall_mem_nil _⟩
  have whole := acts_dumpsObject acts
  have strings : (entries.flatMap fun entry => entry.1 :: entry.2.2) = bundle.strings := by
    simp [entries, Bundle.strings]
  rwa [strings] at whole

theorem scan_seen (strings : List PyStr) (mode : Mode) :
    scan mode (seen strings) = strings.foldl (fun mode s => scan mode (shown s)) mode := by
  have behind : ∀ before : Text, scan mode (before ++ seen strings) =
      strings.foldl (fun mode s => scan mode (shown s)) (scan mode before) := by
    induction strings generalizing mode with
    | nil =>
        intro before
        change scan mode (before ++ []) = scan mode before
        rw [List.append_nil]
    | cons s strings ih =>
        intro before
        have more : seen (s :: strings) = '"' :: (shown s ++ seen strings) := List.flatMap_cons
        rw [more, scan_append rfl, scan_cons_of_ne (by decide) (by decide), ih, List.foldl_cons]
  have whole := behind []
  rw [List.nil_append] at whole
  rw [whole]
  cases mode with
  | plain => rfl
  | comment => rfl
  | nested => rfl

/-- The element ends at the template's end tag unless what is seen of the strings is a trap. -/
theorem scriptContent_dataScript_iff (template : Template) (bundle : Bundle) :
    scriptContent (dataScript template bundle) = some (bundle.content, template.remainder) ↔
      ¬Traps (seen bundle.strings) := by
  let raw : Text := "\nwindow.__BUNDLE_DATA__ = ".toList ++ (bundle.dumps ++ ";\n".toList)
  have content : bundle.content = escapeClose raw := by
    have opening : (bundle.dumps ++ ";\n".toList).head? ≠ some '/' := by
      intro same
      cases same
    have ending : (";\n".toList).head? ≠ some '/' := by decide
    rw [escapeClose_append opening, escapeClose_append ending]
    rfl
  have mode : scan .plain raw = scan .plain (seen bundle.strings) := by
    have statement : Acts "\nwindow.__BUNDLE_DATA__ = ".toList [] := acts_inert (by decide)
    have whole := statement.append (acts_dumps bundle) .plain ";\n".toList
    rw [List.append_assoc, List.nil_append] at whole
    rw [scan_seen]
    change scan .plain raw = scan _ ";\n".toList at whole
    rw [whole]
    cases bundle.strings.foldl (fun mode s => scan mode (shown s)) .plain with
    | plain => rfl
    | comment => rfl
    | nested => rfl
  have traps : Traps (escapeClose raw) ↔ Traps (seen bundle.strings) := by
    rw [← (scan_eq_nested_iff _).1, ← (scan_eq_nested_iff _).1, scan_escapeClose, mode]
  rw [dataScript, content, ← traps]
  exact scriptContent_eq_iff (noClose_escapeClose raw) template.viewer

/-- A bundle of one document with a body. -/
def bundleOf (body : String) : Bundle where
  displayName := "kb".toList
  documents :=
    [⟨PyStr.lit "a", PyStr.lit "A", PyStr.lit "memory", [], PyStr.lit body, []⟩]
  named := by
    intro document member
    rw [List.mem_singleton.mp member]
    rfl

/-- A body with a comment mark and a script tag swallows the template's end tag. -/
theorem nested_script_swallows_the_end_tag :
    ¬∃ template : Template, scriptContent (dataScript template (bundleOf "<!--<script>")) =
      some ((bundleOf "<!--<script>").content, template.remainder) := by
  rintro ⟨template, ended⟩
  apply (scriptContent_dataScript_iff template _).mp ended
  apply (scan_eq_nested_iff _).1.mp
  decide +kernel

/-- The data script ends at the template's own end tag and makes the bundle's data exactly when
no comment mark in the strings of the data has a script tag behind it and no `-->`, and no
document is called `__proto__`. -/
theorem dataScript_iff (template : Template) (bundle : Bundle) :
    scriptContent (dataScript template bundle) = some (bundle.content, template.remainder) ∧
        evaluate bundle.jsonStr = some bundle.value ↔
      ¬Traps (seen bundle.strings) ∧ PyStr.lit "__proto__" ∉ bundle.nodeIds := by
  rw [scriptContent_dataScript_iff, evaluate_jsonStr_iff]

end DataOlympus.Viewer
