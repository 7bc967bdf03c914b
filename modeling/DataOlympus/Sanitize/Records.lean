import Mathlib.Data.List.DropRight
import DataOlympus.Sanitize.Errors

/-!
# Log records of the libraries

Records that the protocol libraries emit are rewritten by where they come from: a template
keeps its text and loses its arguments, a formatted message becomes a marker, and a traceback
loses the messages of its exceptions; a record that cannot be rewritten gets a constant text.
What a caller submitted makes no difference to what is left.
-/

namespace DataOlympus.Sanitize

open Lines

/-! ## Tracebacks -/

/-- An exception with its formatted stack, as `traceback.TracebackException` takes it apart. -/
inductive Exc where
  | mk (typeName message : PyStr) (stack : List PyStr) (cause context : Option Exc)
      (suppressContext : Bool) (children : List Exc)

/-- `line.rstrip("\n")`. -/
def rstripNewlines (line : PyStr) : PyStr :=
  line.rdropWhile fun c => c = .scalar '\n'

/-- `REDACTED`. -/
def redacted : PyStr :=
  PyStr.lit "<redacted>"

/-- `MESSAGE_REDACTED`. -/
def messageRedacted : PyStr :=
  PyStr.lit "<message redacted>"

mutual

/-- `_format_exception(te, lines, depth)`, the lines it appends. -/
def formatException (depth : Nat) : Exc → List PyStr
  | .mk typeName _ stack cause context suppressContext children =>
      if 8 < depth then [PyStr.lit "<nested exceptions omitted>"]
      else
        (if cause.isSome then formatLinked (depth + 1) cause
          else if suppressContext then [] else formatLinked (depth + 1) context) ++
        PyStr.lit "Traceback (most recent call last):" :: stack.map rstripNewlines ++
        (typeName ++ PyStr.lit ": " ++ messageRedacted) ::
        formatChildren (depth + 1) 1 children
termination_by structural exc => exc

/-- The exception that led to another one. -/
def formatLinked (depth : Nat) : Option Exc → List PyStr
  | none => []
  | some exc => formatException depth exc ++
      [PyStr.lit "\nThe above exception led to the following exception:\n"]
termination_by structural linked => linked

/-- The members of an exception group, counted from `index`. -/
def formatChildren (depth index : Nat) : List Exc → List PyStr
  | [] => []
  | child :: rest =>
      (PyStr.lit "  +---------------- " ++ PyStr.ofText (intRepr index) ++
        PyStr.lit " ----------------") ::
      (formatException depth child).map (PyStr.lit "  | " ++ ·) ++
      formatChildren depth (index + 1) rest
termination_by structural children => children

end

mutual

/-- The exception without its messages. -/
def Exc.unworded : Exc → Exc
  | .mk typeName _ stack cause context suppressContext children =>
      .mk typeName [] stack (unwordedLinked cause) (unwordedLinked context) suppressContext
        (unwordedChildren children)
termination_by structural exc => exc

def Exc.unwordedLinked : Option Exc → Option Exc
  | none => none
  | some exc => some exc.unworded
termination_by structural linked => linked

def Exc.unwordedChildren : List Exc → List Exc
  | [] => []
  | child :: rest => child.unworded :: unwordedChildren rest
termination_by structural children => children

end

theorem isSome_unwordedLinked (linked : Option Exc) :
    (Exc.unwordedLinked linked).isSome = linked.isSome := by
  cases linked with
  | none => rfl
  | some exc => rfl

mutual

/-- The lines of a traceback do not depend on the messages. -/
theorem formatException_unworded (depth : Nat) (exc : Exc) :
    formatException depth exc.unworded = formatException depth exc :=
  match exc with
  | .mk typeName message stack cause context suppressContext children => by
      rw [Exc.unworded, formatException, formatException, isSome_unwordedLinked,
        formatLinked_unworded, formatLinked_unworded, formatChildren_unworded]
termination_by structural exc

theorem formatLinked_unworded (depth : Nat) (linked : Option Exc) :
    formatLinked depth (Exc.unwordedLinked linked) = formatLinked depth linked :=
  match linked with
  | none => rfl
  | some exc => by
      rw [Exc.unwordedLinked, formatLinked, formatLinked, formatException_unworded]
termination_by structural linked

theorem formatChildren_unworded (depth index : Nat) (children : List Exc) :
    formatChildren depth index (Exc.unwordedChildren children) =
      formatChildren depth index children :=
  match children with
  | [] => rfl
  | child :: rest => by
      rw [Exc.unwordedChildren, formatChildren, formatChildren, formatException_unworded,
        formatChildren_unworded]
termination_by structural children

end

/-! ## Records -/

/-- `record.exc_info` where it is set: its exception, or a tuple without one. -/
abbrev ExcInfo : Type := Option Exc

/-- `_sanitized_traceback(exc_info)`. -/
def sanitizedTraceback : ExcInfo → PyStr
  | none => []
  | some exc => PyStr.join (PyStr.lit "\n") (formatException 0 exc)

/-- What the filter and the formatters read of a `logging.LogRecord`. -/
structure LogRecord where
  name : PyStr
  pathname : PyStr
  lineno : Int
  msg : Obj
  args : Obj
  excInfo : Option ExcInfo
  /-- Empty where there is none. -/
  excText : PyStr
  stackInfo : Option PyStr
  /-- `_mcp_input_sanitized`. -/
  sanitized : Bool

/-- `not args` fails. -/
def Obj.truthy : Obj → Bool
  | str text => !text.isEmpty
  | int value => value != 0
  | bool value => value
  | list items => !items.isEmpty
  | tuple items => !items.isEmpty
  | dict entries => !entries.isEmpty
  | other truth _ _ => truth

/-- `_redacted_args(args)`. -/
def redactedArgs : Obj → Obj
  | .dict entries => .dict (entries.map fun entry => (entry.1, .str redacted))
  | .tuple items => .tuple (items.map fun _ => .str redacted)
  | _ => .tuple []

/-- `_ACCESS_LOG`. -/
def accessLog : PyStr :=
  PyStr.lit "%s - \"%s %s HTTP/%s\" %d"

/-- `_INVALID_ARGUMENTS`. -/
def invalidArguments : PyStr :=
  PyStr.lit "Invalid arguments for tool %r: %s"

/-- `_SAFE_TYPE_NAME_TEMPLATES`. -/
def safeTypeNameTemplates : List PyStr :=
  [PyStr.lit "Processing request of type %s", PyStr.lit "Dispatching request of type %s"]

/-- `target.split("?", 1)[0] + "?" + REDACTED` for a target with a query. -/
def redactTarget (target : PyStr) : PyStr :=
  if .scalar '?' ∈ target then
    target.takeWhile (fun c => c ≠ .scalar '?') ++ PyStr.lit "?" ++ redacted
  else target

/-- `_redact_access_log(record)`. -/
def redactAccessLog (record : LogRecord) : LogRecord :=
  match record.msg, record.args with
  | .str msg, .tuple [client, method, .str target, version, status] =>
      if msg = accessLog then
        { record with args := .tuple [client, method, .str (redactTarget target), version, status] }
      else record
  | _, _ => record

/-- Where the libraries are, and what the runtime says about texts. -/
structure Site where
  abspath : PyStr → PyStr
  sdkRoots : List PyStr
  excludedRoots : List PyStr
  siteRoots : List PyStr
  /-- `str.isidentifier`. -/
  isIdentifier : PyStr → Bool
  /-- `msg % args` does not raise. -/
  formats : PyStr → Obj → Bool

namespace Site

variable (site : Site)

/-- `_under(path, roots)`. -/
def under (path : PyStr) (roots : List PyStr) : Bool :=
  roots.any fun root => (root ++ PyStr.lit "/").isPrefixOf path

/-- `_from_sdk(record)`. -/
def fromSdk (record : LogRecord) : Bool :=
  under (site.abspath record.pathname) site.sdkRoots &&
    !under (site.abspath record.pathname) site.excludedRoots

/-- `_source(record)`. -/
def source (record : LogRecord) : PyStr :=
  let path := site.abspath record.pathname
  let shown := match site.siteRoots.find? fun root =>
      (root ++ PyStr.lit "/").isPrefixOf path with
    | some root => path.drop (root.length + 1)
    | none => path
  shown ++ PyStr.lit ":" ++ PyStr.ofText (intRepr record.lineno)

/-- The message that names only where a record comes from. -/
def marker (record : LogRecord) : Obj :=
  .str (PyStr.lit "MCP diagnostic from " ++ site.source record ++ PyStr.lit " (content redacted)")

/-- The arguments of `_INVALID_ARGUMENTS`. -/
def invalidCall : Obj → Obj → Option (Obj × Obj)
  | .str msg, .tuple [name, errors] => if msg = invalidArguments then some (name, errors) else none
  | _, _ => none

/-- The record names types and nothing else. -/
def namesTypes : Obj → Obj → Bool
  | .str msg, .tuple items => msg ∈ safeTypeNameTemplates && items.all fun item =>
      (item.asStr.map site.isIdentifier).getD false
  | _, _ => false

/-- A template, and whether it has arguments. -/
def template (msg args : Obj) : Option PyStr :=
  if args.truthy then msg.asStr else none

/-- The message and the arguments that `_rewrite` puts in place of these, with the marker of
the record.  It raises where `frozenset`s are asked for what they cannot hold. -/
def rewritten (marker msg args : Obj) : Option (Obj × Obj) :=
  match invalidCall msg args with
  | some (name, errors) => (summarizeErrors errors .untrusted).map fun summary =>
      (msg, .tuple [.str (name.asStr.getD redacted), .str summary])
  | none =>
      if msg.hashable then
        if site.namesTypes msg args then some (msg, args)
        else
          match template msg args with
          | some text => some (.str text, redactedArgs args)
          | none => some (marker, .tuple [])
      else none

/-- `record.getMessage()` does not raise. -/
def getMessage (message : Obj × Obj) : Bool :=
  match message.1 with
  | .str msg => !message.2.truthy || site.formats msg message.2
  | _ => false

/-- The exception text that `_rewrite` puts in place. -/
def exceptionText (record : LogRecord) : PyStr :=
  match record.excInfo with
  | some info => sanitizedTraceback info
  | none => if record.excText.isEmpty then [] else
      PyStr.lit "<exception text redacted from " ++ site.source record ++ PyStr.lit ">"

/-- `_rewrite(record)`, unless it raises. -/
def rewrite (record : LogRecord) : Option LogRecord :=
  (site.rewritten (site.marker record) record.msg record.args).map fun attempt =>
    let message := if site.getMessage attempt then attempt else (site.marker record, .tuple [])
    { record with
      msg := message.1
      args := message.2
      excInfo := none
      excText := site.exceptionText record
      stackInfo := none }

/-- What the filter leaves of a record that cannot be rewritten; it is not marked. -/
def unparsed (record : LogRecord) : LogRecord :=
  { record with
    msg := .str (PyStr.lit "MCP diagnostic redacted: the input sanitizer could not parse it")
    args := .tuple []
    excInfo := none
    excText := []
    stackInfo := none }

/-- `ArgumentSanitizingLogFilter.filter(record)`, which keeps every record. -/
def filter (record : LogRecord) : LogRecord :=
  if record.sanitized then record
  else if record.name = PyStr.lit "uvicorn.access" then
    { redactAccessLog record with sanitized := true }
  else if site.fromSdk record then
    match site.rewrite record with
    | some rewritten => { rewritten with sanitized := true }
    | none => unparsed record
  else record

end Site

/-! ## What makes no difference -/

/-- Arguments of one shape: equally many, or under the same keys, or neither. -/
inductive SameShape : Obj → Obj → Prop
  | tuple {first second : List Obj} : first.length = second.length →
      SameShape (.tuple first) (.tuple second)
  | dict {first second : List (Obj × Obj)} : first.map Prod.fst = second.map Prod.fst →
      SameShape (.dict first) (.dict second)
  | odd {first second : Obj} : redactedArgs first = .tuple [] → redactedArgs second = .tuple [] →
      SameShape first second

/-- Messages that differ in what a caller can have submitted. -/
inductive SameMessage (site : Site) : Obj → Obj → Obj → Obj → Prop
  | refl {msg args : Obj} : SameMessage site msg args msg args
  /-- A call whose arguments are invalid, under the name of the tool. -/
  | invalid {name errors others : Obj} : SameErrors .untrusted errors others →
      SameMessage site (.str invalidArguments) (.tuple [name, errors]) (.str invalidArguments)
        (.tuple [name, others])
  /-- A template of a library with arguments. -/
  | template {msg args others : Obj} {text : PyStr} :
      Site.invalidCall msg args = none → Site.invalidCall msg others = none →
      site.namesTypes msg args = false → site.namesTypes msg others = false →
      Site.template msg args = some text → Site.template msg others = some text →
      SameShape args others → SameMessage site msg args msg others
  /-- Messages that were formatted before they were logged, or are no texts at all. -/
  | formatted {msg args other others : Obj} : msg.hashable = other.hashable →
      Site.invalidCall msg args = none → Site.invalidCall other others = none →
      site.namesTypes msg args = false → site.namesTypes other others = false →
      Site.template msg args = none → Site.template other others = none →
      SameMessage site msg args other others

/-- Records that differ in what a caller can have submitted. -/
inductive SameRecord (site : Site) : LogRecord → LogRecord → Prop
  /-- Records of the libraries from one place, with exceptions of the same types. -/
  | library {first second : LogRecord} : site.fromSdk first = true →
      first.name ≠ PyStr.lit "uvicorn.access" → first.name = second.name →
      first.pathname = second.pathname → first.lineno = second.lineno →
      first.sanitized = false → second.sanitized = false →
      SameMessage site first.msg first.args second.msg second.args →
      first.excInfo.map (Option.map Exc.unworded) =
        second.excInfo.map (Option.map Exc.unworded) →
      first.excText.isEmpty = second.excText.isEmpty → SameRecord site first second
  /-- Lines of the access log that differ in the query string. -/
  | access {record : LogRecord} {client method version status : Obj}
      {path query other : PyStr} : record.name = PyStr.lit "uvicorn.access" →
      record.sanitized = false → record.msg = .str accessLog → .scalar '?' ∉ path →
      SameRecord site
        { record with
          args := .tuple [client, method, .str (path ++ .scalar '?' :: query), version, status] }
        { record with
          args := .tuple [client, method, .str (path ++ .scalar '?' :: other), version, status] }

theorem SameShape.redactedArgs {first second : Obj} (same : SameShape first second) :
    redactedArgs first = redactedArgs second := by
  cases same with
  | odd nothing none => exact nothing.trans none.symm
  | @tuple first second lengths =>
      simp only [Sanitize.redactedArgs, List.map_const', lengths]
  | @dict first second keys =>
      have pairs (entries : List (Obj × Obj)) :
          entries.map (fun entry => (entry.1, Obj.str redacted)) =
            (entries.map Prod.fst).map fun key => (key, Obj.str redacted) := by
        rw [List.map_map]
        rfl
      simp only [Sanitize.redactedArgs, pairs, keys]

theorem sanitizedTraceback_congr {first second : ExcInfo}
    (same : first.map Exc.unworded = second.map Exc.unworded) :
    sanitizedTraceback first = sanitizedTraceback second := by
  cases first with
  | none =>
      cases second with
      | none => rfl
      | some exc => cases same
  | some exc =>
      cases second with
      | none => cases same
      | some other =>
          have unworded : exc.unworded = other.unworded := Option.some.inj same
          have lines : formatException 0 exc = formatException 0 other := by
            rw [← formatException_unworded 0 exc, unworded, formatException_unworded]
          simp only [sanitizedTraceback, lines]

theorem SameMessage.rewritten {site : Site} {msg args other others : Obj}
    (same : SameMessage site msg args other others) (marker : Obj) :
    site.rewritten marker msg args = site.rewritten marker other others := by
  cases same with
  | refl => rfl
  | invalid errors =>
      simp only [Site.rewritten, Site.invalidCall, if_true, errors.summarizeErrors]
  | template noCall none noTypes nothing text again shape =>
      simp only [Site.rewritten, noCall, none, noTypes, nothing, text, again, shape.redactedArgs,
        Bool.false_eq_true, if_false]
  | formatted hashable noCall none noTypes nothing text again =>
      simp only [Site.rewritten, noCall, none, noTypes, nothing, text, again, hashable,
        Bool.false_eq_true, if_false]

theorem redactTarget_append {path : PyStr} (plain : .scalar '?' ∉ path) (query : PyStr) :
    redactTarget (path ++ .scalar '?' :: query) = path ++ PyStr.lit "?" ++ redacted := by
  have cut : (path ++ CodePoint.scalar '?' :: query).takeWhile (fun c => c ≠ .scalar '?') =
      path := by
    rw [List.takeWhile_append_of_pos]
    · simp
    · intro c member
      exact decide_eq_true fun same => plain (same ▸ member)
  unfold redactTarget
  rw [if_pos (by simp), cut]

theorem exceptionText_congr {site : Site} {first second : LogRecord}
    (traces : first.excInfo.map (Option.map Exc.unworded) =
      second.excInfo.map (Option.map Exc.unworded))
    (texts : first.excText.isEmpty = second.excText.isEmpty)
    (sources : site.source first = site.source second) :
    site.exceptionText first = site.exceptionText second := by
  unfold Site.exceptionText
  cases had : first.excInfo with
  | none =>
      cases has : second.excInfo with
      | none => simp only [texts, sources]
      | some info => simp [had, has] at traces
  | some info =>
      cases has : second.excInfo with
      | none => simp [had, has] at traces
      | some other =>
          simp only [had, has, Option.map_some, Option.some.injEq] at traces
          exact sanitizedTraceback_congr traces

/-- What a caller submitted makes no difference to a record behind the filter. -/
theorem filter_conceals {site : Site} {first second : LogRecord}
    (same : SameRecord site first second) : site.filter first = site.filter second := by
  cases same with
  | access access fresh message plain =>
      simp only [Site.filter, fresh, access, redactAccessLog, message, if_true,
        redactTarget_append plain, Bool.false_eq_true, if_false]
  | library sdk noAccess names paths lines fresh again message traces texts =>
      have sdkAgain : site.fromSdk second = true := by
        rw [← sdk, Site.fromSdk, Site.fromSdk, paths]
      have sources : site.source first = site.source second := by
        unfold Site.source
        rw [paths, lines]
      have markers : site.marker first = site.marker second := by
        unfold Site.marker
        rw [sources]
      have rewritten := message.rewritten (site.marker second)
      have exceptions := exceptionText_congr traces texts sources
      simp only [Site.filter, fresh, again, names ▸ noAccess, sdk, sdkAgain,
        Bool.false_eq_true, if_false, if_true, Site.rewrite, markers, rewritten, names, paths,
        lines, exceptions]
      cases site.rewritten (site.marker second) second.msg second.args with
      | none => simp only [Option.map_none, Site.unparsed, fresh, again, names, paths, lines]
      | some attempt => simp only [Option.map_some]

/-- A record may pass the filter on its logger and again on every handler; what could be
rewritten stays. -/
theorem filter_filter {site : Site} {record : LogRecord}
    (parsed : site.fromSdk record = true → (site.rewrite record).isSome = true) :
    site.filter (site.filter record) = site.filter record := by
  unfold Site.filter
  split
  · rfl
  · split
    · rfl
    · split
      · rename_i sdk
        obtain ⟨rewritten, done⟩ := Option.isSome_iff_exists.mp (parsed sdk)
        rw [done]
        rfl
      · rfl

/-- What could not be rewritten becomes the marker of its place when it passes again. -/
theorem filter_filter_of_raises {site : Site} {record : LogRecord}
    (fresh : record.sanitized = false) (noAccess : record.name ≠ PyStr.lit "uvicorn.access")
    (sdk : site.fromSdk record = true) (raises : site.rewrite record = none) :
    site.filter (site.filter record) =
      { Site.unparsed record with msg := site.marker record, sanitized := true } := by
  have once : site.filter record = Site.unparsed record := by
    simp only [Site.filter, fresh, noAccess, sdk, raises, Bool.false_eq_true, if_false, if_true]
  have again : site.fromSdk (Site.unparsed record) = true := sdk
  have rewritten : site.rewrite (Site.unparsed record) =
      some { Site.unparsed record with msg := site.marker record } := rfl
  have unmarked : (Site.unparsed record).sanitized = false := fresh
  have named : (Site.unparsed record).name ≠ PyStr.lit "uvicorn.access" := noAccess
  rw [once]
  simp only [Site.filter, unmarked, named, again, rewritten, Bool.false_eq_true, if_false, if_true]

/-- A server whose libraries are in one directory. -/
def Site.plain : Site where
  abspath path := path
  sdkRoots := [PyStr.lit "/site/mcp"]
  excludedRoots := []
  siteRoots := [PyStr.lit "/site"]
  isIdentifier _ := true
  formats _ _ := true

/-- What a library logs of a call with an invalid argument under a key of the caller. -/
def rejected (key : String) : LogRecord where
  name := PyStr.lit "mcp.server"
  pathname := PyStr.lit "/site/mcp/server.py"
  lineno := 7
  msg := .str invalidArguments
  args := .tuple [.str (PyStr.lit "kb_search"), .list [.dict
    [(.str (PyStr.lit "type"), .str (PyStr.lit "extra_forbidden")),
     (.str (PyStr.lit "loc"), .tuple [.str (PyStr.lit key)])]]]
  excInfo := none
  excText := []
  stackInfo := none
  sanitized := false

/-- Two keys that a caller may have chosen. -/
theorem filter_conceals_rejected :
    Site.plain.filter (rejected "password") = Site.plain.filter (rejected "token") := by
  refine filter_conceals (.library (by decide) (by decide) rfl rfl rfl rfl rfl ?_ rfl rfl)
  refine .invalid (.list (.cons (.dict (.inl rfl) ?_) .nil))
  exact .cons (.inr (.inr ⟨⟨rfl, rfl⟩, rfl, rfl⟩)) .nil

end DataOlympus.Sanitize
