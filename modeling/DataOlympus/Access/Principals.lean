import DataOlympus.Control.Except
import DataOlympus.Python.JsonRead
import Mathlib.Data.List.Nodup

/-!
# Principals and their capabilities

The server reads its credentials once, at startup, and from then on every request resolves
its `Authorization` header against them.  A registry carries the fact that no two of its
credentials share a name, since the name is what owns a parked proposal.
-/

namespace DataOlympus.Access

open Lines

/-! ## Capabilities -/

/-- `CAP_READ`. -/
def capRead : PyStr := PyStr.lit "read"

/-- `CAP_PROPOSE`. -/
def capPropose : PyStr := PyStr.lit "propose"

/-- `CAP_AUTO_COMMIT`. -/
def capAutoCommit : PyStr := PyStr.lit "auto_commit"

/-- `CAP_RESOLVE`. -/
def capResolve : PyStr := PyStr.lit "resolve"

/-- `CAP_BOOTSTRAP`. -/
def capBootstrap : PyStr := PyStr.lit "bootstrap"

/-- `CAP_RECORD_EVENT`. -/
def capRecordEvent : PyStr := PyStr.lit "record_event"

/-- `ALL_CAPABILITIES`. -/
def allCapabilities : List PyStr :=
  [capRead, capPropose, capAutoCommit, capResolve, capBootstrap, capRecordEvent]

/-- `DEFAULT_PRINCIPAL_CAPABILITIES`. -/
def defaultPrincipalCapabilities : List PyStr :=
  [capRead, capPropose]

structure Principal where
  name : PyStr
  capabilities : List PyStr
  authenticated : Bool

/-- `principal.has(capability)`. -/
def Principal.has (principal : Principal) (capability : PyStr) : Bool :=
  capability ∈ principal.capabilities

/-- `LOCAL_TRUSTED`. -/
def localTrusted : Principal :=
  ⟨PyStr.lit "local", allCapabilities, false⟩

/-- `ANONYMOUS`. -/
def anonymous : Principal :=
  ⟨PyStr.lit "anonymous", [capRead], false⟩

/-- The principal of `KB_AUTH_TOKEN`. -/
def operator : Principal :=
  ⟨PyStr.lit "operator", allCapabilities, true⟩

/-! ## Reading the credentials -/

/-- What stops a server from starting. -/
inductive StartupError where
  | notJson
  | notList
  | emptyList
  | notObject (number : Nat)
  | noToken (number : Nat)
  | duplicateName (name : PyStr)
  /-- `TypeError`: a `capabilities` value that is not iterable. -/
  | notIterable
  /-- `str` of a value raises. -/
  | raised (error : Raised)

/-- The text of the exception; `repr` is Python's. -/
def StartupError.message (repr : PyStr → PyStr) : StartupError → PyStr
  | notJson => PyStr.lit ("KB_AUTH_PRINCIPALS is not valid JSON; expected a list of " ++
      "\x7b\"name\", \"token\", \"capabilities\"\x7d objects")
  | notList => PyStr.lit "KB_AUTH_PRINCIPALS must be a JSON list of objects"
  | emptyList => PyStr.lit ("KB_AUTH_PRINCIPALS is an empty list; unset it, or list at least " ++
      "one principal")
  | notObject number => PyStr.lit "KB_AUTH_PRINCIPALS entry " ++
      PyStr.ofText (Nat.toDigits 10 number) ++ PyStr.lit " is not an object"
  | noToken number => PyStr.lit "KB_AUTH_PRINCIPALS entry " ++
      PyStr.ofText (Nat.toDigits 10 number) ++ PyStr.lit " has no non-empty string 'token'"
  | duplicateName name => PyStr.lit "duplicate principal name " ++ repr name ++
      PyStr.lit (": principal names are ownership identities and must be unique. " ++
        "Give each credential its own 'name'.")
  | notIterable => PyStr.lit "object is not iterable"
  | raised (.valueError message) => message
  | raised .unhashable => PyStr.lit "unhashable type"
  | raised (.loader message) => message

/-- The loop of `parse_principals_env` over the entries from the given number on. -/
def checkEntries : Nat → List Value → Except StartupError (List Mapping)
  | _, [] => .ok []
  | number, .dict entry :: rest =>
      match Mapping.get entry "token" with
      | some (.str token) =>
          if token.strip = [] then .error (.noToken number)
          else (checkEntries (number + 1) rest).map fun specs => entry :: specs
      | _ => .error (.noToken number)
  | number, _ :: _ => .error (.notObject number)

/-- `parse_principals_env(raw)`. -/
def parsePrincipalsEnv (json : JsonModule) (raw : Text) : Except StartupError (List Mapping) :=
  if strip raw = [] then .ok []
  else
    match json.loads (strip raw) with
    | none => .error .notJson
    | some (.list []) => .error .emptyList
    | some (.list entries) => checkEntries 1 entries
    | some _ => .error .notList

/-! ## The registry -/

/-- `PrincipalRegistry`, in the order in which the tokens are compared. -/
structure PrincipalRegistry where
  byToken : List (PyStr × Principal)
  once : (byToken.map fun known => known.2.name).Nodup
  real : ∀ known ∈ byToken, known.2.authenticated = true

namespace PrincipalRegistry

/-- The registry before the listed principals. -/
def ofToken (authToken : PyStr) : PrincipalRegistry where
  byToken := if authToken = [] then [] else [(authToken, operator)]
  once := by
    split
    · exact List.nodup_nil
    · exact List.nodup_singleton _
  real := by
    split
    · exact fun _ member => absurd member List.not_mem_nil
    · exact List.forall_mem_singleton.mpr rfl

@[simp]
theorem byToken_ofToken (authToken : PyStr) : (ofToken authToken).byToken =
    if authToken = [] then [] else [(authToken, operator)] :=
  rfl

/-- `registry.auth_configured`. -/
def authConfigured (registry : PrincipalRegistry) : Bool :=
  !registry.byToken.isEmpty

/-- The next credential, if its name is new. -/
def add (registry : PrincipalRegistry) (token name : PyStr) (capabilities : List PyStr)
    (fresh : name ∉ registry.byToken.map fun known => known.2.name) : PrincipalRegistry where
  byToken := registry.byToken ++ [(token, ⟨name, capabilities, true⟩)]
  once := by
    rw [List.map_append]
    refine List.nodup_append.mpr ⟨registry.once, List.nodup_singleton _, ?_⟩
    rintro other known added same rfl
    cases List.mem_singleton.mp same
    exact fresh known
  real := List.forall_mem_append.mpr ⟨registry.real, List.forall_mem_singleton.mpr rfl⟩

end PrincipalRegistry

section Startup

variable (runtime : Runtime)

/-- `str(spec.get(key, "")).strip()`. -/
def textOf (spec : Mapping) (key : String) : Except StartupError PyStr :=
  match spec.get key with
  | none => .ok []
  | some value => ((runtime.str value).map PyStr.strip).mapError .raised

/-- The items that a `for` loop reads from a value of JSON. -/
def iterated : Value → Option (List Value)
  | .list items => some items
  | .str s => some (s.map fun c => .str [c])
  | .dict entries => some (entries.map Prod.fst)
  | _ => none

/-- The capability set of an entry. -/
def capabilitiesOf (spec : Mapping) : Except StartupError (List PyStr) :=
  match spec.present "capabilities" with
  | none => .ok defaultPrincipalCapabilities
  | some listed =>
      match iterated listed with
      | none => .error .notIterable
      | some items => do
          let texts ← (items.mapM runtime.str).mapError .raised
          return (texts.map PyStr.strip).filter fun text => text ≠ []

/-- The name of an entry. -/
def nameOf (spec : Mapping) : Except StartupError PyStr :=
  (textOf runtime spec "name").map fun name => if name = [] then PyStr.lit "agent" else name

/-- One round of the loop of the constructor. -/
def addSpec (registry : PrincipalRegistry) (spec : Mapping) :
    Except StartupError PrincipalRegistry := do
  let token ← textOf runtime spec "token"
  if token = [] then return registry
  else
    let name ← nameOf runtime spec
    if fresh : name ∉ registry.byToken.map fun known => known.2.name then do
      let capabilities ← capabilitiesOf runtime spec
      return registry.add token name capabilities fresh
    else .error (.duplicateName name)

/-- The registry of a server that starts with these settings. -/
def startup (json : JsonModule) (authToken raw : Text) : Except StartupError PrincipalRegistry := do
  let specs ← parsePrincipalsEnv json raw
  specs.foldlM (addSpec runtime) (.ofToken (PyStr.ofText authToken))

end Startup

/-! ## Resolving a header -/

/-- `_extract_bearer(auth_header)`. -/
def extractBearer (header : Option Text) : Option Text :=
  header.bind fun header =>
    if "Bearer ".toList <+: header then some (header.drop "Bearer ".toList.length) else none

/-- A known token that is not encodable: `UnicodeEncodeError`. -/
structure EncodeError where

/-- The loop of `resolve`. -/
def findToken (token : Text) : List (PyStr × Principal) → Except EncodeError (Option Principal)
  | [] => .ok none
  | (known, principal) :: rest =>
      if known.encodable then
        if known = PyStr.ofText token then .ok (some principal) else findToken token rest
      else .error ⟨⟩

/-- `registry.resolve(auth_header)`. -/
def PrincipalRegistry.resolve (registry : PrincipalRegistry) (header : Option Text) :
    Except EncodeError Principal :=
  if registry.authConfigured then
    match extractBearer header with
    | none => .ok anonymous
    | some token => (findToken token registry.byToken).map fun found => found.getD anonymous
  else .ok localTrusted

end DataOlympus.Access
