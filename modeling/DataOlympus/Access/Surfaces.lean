import DataOlympus.Access.Principals
import DataOlympus.Pending.Listing

/-!
# The two surfaces

The REST routes and the MCP tools check the same principals, each in its own way.  Both let a
request through in the same cases, a server with credentials lets nothing through without
one, and a parked proposal is read by its proposer or by who could resolve it.
-/

namespace DataOlympus.Access

open Lines

/-! ## What is guarded -/

/-- What the REST routes offer. -/
inductive Operation where
  | health
  | outline
  | curate
  | search
  | get
  | list
  | onboardingStatus
  | proposeMemory
  | proposeEdit
  | resolvePending
  | listPending
  | getPending
  | audit
  | auditVerify
  | consult
  | gateCheck
  | compliance
  | sessionRecap
  | recordEvent
  | bootstrap
  | cleanupPlan
  deriving DecidableEq

namespace Operation

/-- The capability that the handler of the route passes to `_authorize`, if it calls it. -/
def guard : Operation → Option (Option PyStr)
  | health | outline | curate | search | get | list | onboardingStatus => none
  | proposeMemory | proposeEdit => some (some capPropose)
  | resolvePending => some (some capResolve)
  | bootstrap => some (some capBootstrap)
  | recordEvent => some (some capRecordEvent)
  | listPending | getPending | audit | auditVerify | consult | gateCheck | compliance
  | sessionRecap | cleanupPlan => some none

/-- The name of the MCP tool that does the same. -/
def tool : Operation → Option String
  | health => some "kb_health"
  | outline => some "kb_outline"
  | curate => some "kb_curate"
  | search => some "kb_search"
  | get => some "kb_get"
  | list => some "kb_list"
  | onboardingStatus => some "kb_onboarding_status"
  | proposeMemory => some "kb_propose_memory"
  | proposeEdit => some "kb_propose_edit"
  | resolvePending => some "kb_resolve_pending"
  | listPending => some "kb_list_pending"
  | getPending => some "kb_get_pending"
  | audit => some "kb_audit"
  | auditVerify => none
  | consult => some "kb_consult"
  | gateCheck => some "kb_gate_check"
  | compliance => some "kb_compliance"
  | sessionRecap => some "kb_session_recap"
  | recordEvent => some "kb_record_event"
  | bootstrap => some "kb_bootstrap_project"
  | cleanupPlan => some "kb_cleanup_plan"

end Operation

/-- `WRITE_TOOL_CAPABILITY`. -/
def writeToolCapability : List (String × PyStr) :=
  [("kb_propose_memory", capPropose), ("kb_propose_edit", capPropose),
    ("kb_resolve_pending", capResolve), ("kb_bootstrap_project", capBootstrap),
    ("kb_record_event", capRecordEvent)]

/-- `AUTH_REQUIRED_TOOLS`. -/
def authRequiredTools : List String :=
  ["kb_get_pending", "kb_list_pending", "kb_audit", "kb_consult", "kb_gate_check",
    "kb_compliance", "kb_cleanup_plan", "kb_session_recap"]

/-! ## The checks -/

/-- The response of a denied request. -/
inductive Denial where
  /-- 401. -/
  | unauthorized
  /-- 403, with its message. -/
  | forbidden (message : PyStr)

/-- The `ToolError` of a denied call. -/
inductive ToolError where
  | lacksCapability (message : PyStr)
  | authenticationRequired (message : PyStr)

namespace PrincipalRegistry

variable (registry : PrincipalRegistry) (header : Option Text)

/-- `_authorize(request, registry, capability)`. -/
def authorize (capability : Option PyStr) : Except EncodeError (Principal × Option Denial) :=
  (registry.resolve header).map fun principal =>
    let allowed :=
      match capability with
      | none => !registry.authConfigured || principal.authenticated
      | some capability => principal.has capability
    if allowed then (principal, none)
    else if !principal.authenticated then (principal, some .unauthorized)
    else (principal, some (.forbidden (PyStr.lit "principal '" ++ principal.name ++
      PyStr.lit "' lacks capability '" ++ capability.getD (PyStr.lit "None") ++ PyStr.lit "'")))

/-- The handler of a route goes on behind its `_authorize`. -/
def restAdmits (operation : Operation) : Except EncodeError Bool :=
  match operation.guard with
  | none => .ok true
  | some capability => (registry.authorize header capability).map fun answer => answer.2.isNone

/-- `MCPAuthMiddleware.on_call_tool`: the principal the call goes on with. -/
def onCallTool (name : String) : Except EncodeError (Except ToolError Principal) :=
  (registry.resolve header).map fun principal =>
    match writeToolCapability.lookup name with
    | some capability =>
        if principal.has capability then .ok principal
        else .error (.lacksCapability (PyStr.lit "unauthorized: principal '" ++ principal.name ++
          PyStr.lit "' lacks capability '" ++ capability ++ PyStr.lit "' required by '" ++
          PyStr.lit name ++ PyStr.lit "'"))
    | none =>
        if authRequiredTools.contains name && registry.authConfigured &&
            !principal.authenticated then
          .error (.authenticationRequired (PyStr.lit
            ("unauthorized: authentication required for '" ++ name ++ "'")))
        else .ok principal

end PrincipalRegistry

/-! ## The surfaces agree -/

/-- What a guard asks of a resolved principal. -/
def Admits (registry : PrincipalRegistry) (principal : Principal) : Option (Option PyStr) → Bool
  | none => true
  | some none => !registry.authConfigured || principal.authenticated
  | some (some capability) => principal.has capability

variable {registry : PrincipalRegistry} {header : Option Text} {principal : Principal}

/-- A request goes on exactly if its principal is admitted. -/
theorem authorize_of_resolve (resolved : registry.resolve header = .ok principal)
    (capability : Option PyStr) : ∃ denial, registry.authorize header capability =
      .ok (principal, denial) ∧
      (denial = none ↔ Admits registry principal (some capability) = true) := by
  unfold PrincipalRegistry.authorize
  rw [resolved]
  cases allowed : Admits registry principal (some capability) with
  | true =>
      refine ⟨none, ?_, by simp⟩
      cases capability with
      | none => simp [Except.map, show (_ || _) = true from allowed]
      | some capability => simp [Except.map, show principal.has capability = true from allowed]
  | false =>
      cases known : principal.authenticated with
      | true =>
          cases capability with
          | none => simp [Admits, known] at allowed
          | some capability =>
              have lacks : principal.has capability = false := allowed
              exact ⟨_, by simp [Except.map, lacks, known]; rfl, by simp⟩
      | false =>
          refine ⟨some .unauthorized, ?_, by simp⟩
          cases capability with
          | none =>
              have configured : registry.authConfigured = true := by
                simpa [Admits, known] using allowed
              simp [Except.map, configured, known]
          | some capability =>
              have lacks : principal.has capability = false := allowed
              simp [Except.map, lacks, known]

theorem authorize_cases {capability : Option PyStr} {denial : Option Denial}
    (answered : registry.authorize header capability = .ok (principal, denial)) :
    registry.resolve header = .ok principal ∧
      (denial = none ↔ Admits registry principal (some capability) = true) := by
  cases resolved : registry.resolve header with
  | error e => simp [PrincipalRegistry.authorize, resolved, Except.map] at answered
  | ok other =>
      rcases authorize_of_resolve resolved capability with ⟨found, same, admitted⟩
      rw [same] at answered
      cases answered
      exact ⟨rfl, admitted⟩

theorem restAdmits_of_resolve (resolved : registry.resolve header = .ok principal)
    (operation : Operation) : registry.restAdmits header operation =
      .ok (Admits registry principal operation.guard) := by
  unfold PrincipalRegistry.restAdmits
  cases operation.guard with
  | none => rfl
  | some capability =>
      rcases authorize_of_resolve resolved capability with ⟨denial, answered, exact'⟩
      dsimp only
      rw [answered]
      cases allowed : Admits registry principal (some capability) with
      | true =>
          cases exact'.mpr allowed
          rfl
      | false =>
          cases denial with
          | none => exact absurd (exact'.mp rfl) (by rw [allowed]; decide)
          | some denial => rfl

/-- The guard that the middleware puts before a tool. -/
def toolGuard (name : String) : Option (Option PyStr) :=
  match writeToolCapability.lookup name with
  | some capability => some (some capability)
  | none => if authRequiredTools.contains name then some none else none

theorem onCallTool_of_resolve (resolved : registry.resolve header = .ok principal)
    (name : String) : ∃ answer, registry.onCallTool header name = .ok answer ∧
      (answer = .ok principal ↔ Admits registry principal (toolGuard name) = true) := by
  unfold PrincipalRegistry.onCallTool toolGuard
  rw [resolved]
  cases writeToolCapability.lookup name with
  | some capability =>
      cases allowed : principal.has capability with
      | true => exact ⟨.ok principal, by simp [Except.map, allowed], by simp [Admits, allowed]⟩
      | false => exact ⟨_, rfl, by simp [Admits, allowed]⟩
  | none =>
      refine ⟨_, rfl, ?_⟩
      cases required : authRequiredTools.contains name with
      | false => simp [Admits]
      | true =>
          cases configured : registry.authConfigured with
          | false => simp [Admits, configured]
          | true =>
              cases known : principal.authenticated with
              | true => simp [Admits, known]
              | false => simp [Admits, configured, known]

/-- The tables of the two surfaces say the same of every operation both offer. -/
theorem toolGuard_eq_guard {operation : Operation} {name : String}
    (offered : operation.tool = some name) : toolGuard name = operation.guard := by
  cases operation with
  | auditVerify => cases offered
  | _ => cases offered; decide

/-- Whoever the header names, the route and the tool of one operation let the request through
in the same cases. -/
theorem surfaces_agree {operation : Operation} {name : String}
    (offered : operation.tool = some name) (resolved : registry.resolve header = .ok principal) :
    registry.restAdmits header operation = .ok true ↔
      registry.onCallTool header name = .ok (.ok principal) := by
  rcases onCallTool_of_resolve resolved name with ⟨answer, called, admitted⟩
  rw [restAdmits_of_resolve resolved, called, Except.ok.injEq, Except.ok.injEq, admitted,
    toolGuard_eq_guard offered]

/-- A setting of two agents, of which the second may only read and record events. -/
def twoAgents : Text :=
  ("[\x7b\"token\": \"a\", \"name\": \"writer\"\x7d, " ++
    "\x7b\"token\": \"b\", \"capabilities\": [\"read\", \"record_event\"]\x7d]").toList

/-- A runtime that prints nothing but strings. -/
def plainRuntime : Runtime :=
  Runtime.ofBlocks []

/-- The second agent records an event. -/
theorem surfaces_agree_recordEvent :
    ∃ registry principal, startup plainRuntime sampleJson [] twoAgents = .ok registry ∧
      registry.resolve (some "Bearer b".toList) = .ok principal ∧
      registry.restAdmits (some "Bearer b".toList) .recordEvent = .ok true ∧
      (registry.restAdmits (some "Bearer b".toList) .recordEvent = .ok true ↔
        registry.onCallTool (some "Bearer b".toList) "kb_record_event" =
          .ok (.ok principal)) := by
  have agree : ∀ (registry : PrincipalRegistry) principal,
      registry.resolve (some "Bearer b".toList) = .ok principal →
        (registry.restAdmits (some "Bearer b".toList) .recordEvent = .ok true ↔
          registry.onCallTool (some "Bearer b".toList) "kb_record_event" =
            .ok (.ok principal)) := by
    intro registry principal resolved
    exact surfaces_agree rfl resolved
  exact ⟨_, _, rfl, rfl, rfl, agree _ _ rfl⟩

/-! ## Credentials -/

theorem exists_of_findToken {token : Text} {known : List (PyStr × Principal)}
    (found : findToken token known = .ok (some principal)) :
    (PyStr.ofText token, principal) ∈ known := by
  induction known with
  | nil => cases found
  | cons first rest ih =>
      unfold findToken at found
      split at found
      · split at found
        · rename_i same
          cases found
          exact same ▸ List.mem_cons_self
        · exact List.mem_cons_of_mem _ (ih found)
      · cases found

/-- A request with credentials is one of the known ones, anonymous or trusted. -/
theorem resolve_cases (resolved : registry.resolve header = .ok principal) :
    registry.authConfigured = false ∧ principal = localTrusted ∨
      registry.authConfigured = true ∧ (principal = anonymous ∨
        ∃ bearer, extractBearer header = some bearer ∧
          (PyStr.ofText bearer, principal) ∈ registry.byToken) := by
  unfold PrincipalRegistry.resolve at resolved
  cases configured : registry.authConfigured with
  | false =>
      rw [configured] at resolved
      exact .inl ⟨rfl, (Except.ok.inj resolved).symm⟩
  | true =>
      rw [configured, if_pos rfl] at resolved
      refine .inr ⟨rfl, ?_⟩
      cases extracted : extractBearer header with
      | none =>
          rw [extracted] at resolved
          exact .inl (Except.ok.inj resolved).symm
      | some bearer =>
          rw [extracted] at resolved
          rcases Except.map_eq_ok_iff.mp resolved with ⟨found, looked, made⟩
          cases found with
          | none => exact .inl made.symm
          | some known =>
              cases made
              exact .inr ⟨bearer, rfl, exists_of_findToken looked⟩

/-- With credentials in place, a guarded operation is open to a known credential only. -/
theorem exists_credential {operation : Operation} (guarded : operation.guard ≠ none)
    (configured : registry.authConfigured = true)
    (resolved : registry.resolve header = .ok principal)
    (admitted : Admits registry principal operation.guard = true) :
    ∃ bearer, extractBearer header = some bearer ∧
      (PyStr.ofText bearer, principal) ∈ registry.byToken := by
  rcases resolve_cases resolved with ⟨off, -⟩ | ⟨-, rfl | known⟩
  · rw [configured] at off
    cases off
  · cases operation with
    | health | outline | curate | search | get | list | onboardingStatus =>
        exact absurd rfl guarded
    | proposeMemory | proposeEdit | resolvePending | bootstrap | recordEvent =>
        exact absurd (show anonymous.has _ = true from admitted) (by decide)
    | listPending | getPending | audit | auditVerify | consult | gateCheck | compliance
    | sessionRecap | cleanupPlan =>
        simp [Admits, Operation.guard, anonymous, configured] at admitted
  · exact known

/-! ## Where the credentials come from -/

section Startup

variable {runtime : Runtime} {json : JsonModule} {authToken raw : Text}

/-- What one round of the constructor adds. -/
theorem addSpec_cases {before after : PrincipalRegistry} {spec : Mapping}
    (added : addSpec runtime before spec = .ok after) :
    textOf runtime spec "token" = .ok [] ∧ after = before ∨
      ∃ token name capabilities, textOf runtime spec "token" = .ok token ∧ token ≠ [] ∧
        capabilitiesOf runtime spec = .ok capabilities ∧
        after.byToken = before.byToken ++ [(token, ⟨name, capabilities, true⟩)] := by
  rcases Except.bind_eq_ok_iff.mp added with ⟨token, read, rest⟩
  split at rest
  · rename_i empty
    exact .inl ⟨empty ▸ read, (Except.ok.inj rest).symm⟩
  · rename_i nonempty
    rcases Except.bind_eq_ok_iff.mp rest with ⟨name, -, named⟩
    split at named
    · rcases Except.bind_eq_ok_iff.mp named with ⟨capabilities, listed, made⟩
      cases made
      exact .inr ⟨token, name, capabilities, read, nonempty, listed, rfl⟩
    · cases named

/-- The credential is the one of the operator or one of an entry. -/
def FromSettings (runtime : Runtime) (json : JsonModule) (authToken raw : Text)
    (token : PyStr) (principal : Principal) : Prop :=
  authToken ≠ [] ∧ token = PyStr.ofText authToken ∧ principal = operator ∨
    ∃ specs, parsePrincipalsEnv json raw = .ok specs ∧ ∃ spec ∈ specs,
      textOf runtime spec "token" = .ok token ∧
        capabilitiesOf runtime spec = .ok principal.capabilities

theorem fromSettings_of_startup (started : startup runtime json authToken raw = .ok registry) :
    ∀ known ∈ registry.byToken, FromSettings runtime json authToken raw known.1 known.2 := by
  rcases Except.bind_eq_ok_iff.mp started with ⟨specs, parsed, looped⟩
  refine @Except.foldlM_induction _ _ _ _ _ (fun registry => ∀ known ∈ registry.byToken,
    FromSettings runtime json authToken raw known.1 known.2) _ _ ?_ ?_ looped
  · intro known member
    rw [PrincipalRegistry.byToken_ofToken] at member
    split at member
    · cases member
    · rename_i nonempty
      cases List.mem_singleton.mp member
      exact .inl ⟨fun empty => nonempty (by rw [empty]; rfl), rfl, rfl⟩
  · intro before after spec member kept added known here
    rcases addSpec_cases added with ⟨-, rfl⟩ | ⟨token, name, capabilities, read, -, listed, made⟩
    · exact kept known here
    · rw [made] at here
      rcases List.mem_append.mp here with old | new
      · exact kept known old
      · cases List.mem_singleton.mp new
        exact .inr ⟨specs, parsed, spec, member, read, listed⟩

/-- Every entry that passes the check has a token. -/
theorem token_of_checkEntries {number : Nat} {entries : List Value} {specs : List Mapping}
    (checked : checkEntries number entries = .ok specs) : specs.length = entries.length ∧
      ∀ spec ∈ specs, ∃ token, Mapping.get spec "token" = some (.str token) ∧ token.strip ≠ [] := by
  induction entries generalizing number specs with
  | nil =>
      cases checked
      exact ⟨rfl, fun _ member => absurd member List.not_mem_nil⟩
  | cons entry rest ih =>
      cases entry with
      | dict entry =>
          unfold checkEntries at checked
          split at checked
          · rename_i token found
            split at checked
            · cases checked
            · rename_i nonempty
              rcases Except.map_eq_ok_iff.mp checked with ⟨others, restOk, rfl⟩
              obtain ⟨sameLength, tokens⟩ := ih restOk
              exact ⟨congrArg Nat.succ sameLength,
                List.forall_mem_cons.mpr ⟨⟨token, found, nonempty⟩, tokens⟩⟩
          · cases checked
      | _ => cases checked

/-- A setting that is not empty turns authentication on. -/
theorem authConfigured_of_startup (started : startup runtime json authToken raw = .ok registry)
    (configured : authToken ≠ [] ∨ strip raw ≠ []) : registry.authConfigured = true := by
  rcases Except.bind_eq_ok_iff.mp started with ⟨specs, parsed, looped⟩
  have grows : ∀ {before after : PrincipalRegistry} {spec : Mapping},
      before.byToken ≠ [] → addSpec runtime before spec = .ok after → after.byToken ≠ [] := by
    intro before after spec nonempty added
    rcases addSpec_cases added with ⟨-, rfl⟩ | ⟨_, _, _, -, -, -, made⟩
    · exact nonempty
    · rw [made]
      exact List.append_ne_nil_of_left_ne_nil nonempty _
  have stays : ∀ {start : PrincipalRegistry} {specs : List Mapping}, start.byToken ≠ [] →
      specs.foldlM (addSpec runtime) start = .ok registry → registry.byToken ≠ [] :=
    fun nonempty looped => @Except.foldlM_induction _ _ _ _ _
      (fun registry => registry.byToken ≠ []) _ _ nonempty
      (fun _ _ _ _ kept added => grows kept added) looped
  have something : registry.byToken ≠ [] := by
    by_cases unset : authToken = []
    · have listed : strip raw ≠ [] := configured.resolve_left (not_not_intro unset)
      unfold parsePrincipalsEnv at parsed
      rw [if_neg listed] at parsed
      split at parsed
      · cases parsed
      · cases parsed
      · rename_i entries someEntry _
        obtain ⟨sameLength, tokens⟩ := token_of_checkEntries parsed
        cases specs with
        | nil =>
            have empty : entries = [] := List.length_eq_zero_iff.mp sameLength.symm
            exact absurd empty someEntry
        | cons spec rest =>
            rw [List.foldlM_cons] at looped
            rcases Except.bind_eq_ok_iff.mp looped with ⟨next, added, others⟩
            rcases tokens spec List.mem_cons_self with ⟨token, found, nonempty⟩
            have read : textOf runtime spec "token" = .ok token.strip := by
              rw [textOf, found]
              rfl
            refine stays ?_ others
            rcases addSpec_cases added with ⟨empty, -⟩ | ⟨_, _, _, -, -, -, made⟩
            · rw [read] at empty
              exact absurd (Except.ok.inj empty) nonempty
            · rw [made]
              exact List.append_ne_nil_of_right_ne_nil _ (List.cons_ne_nil _ _)
      · cases parsed
    · refine stays ?_ looped
      rw [PrincipalRegistry.byToken_ofToken, if_neg (by simpa using unset)]
      exact List.cons_ne_nil _ _
  unfold PrincipalRegistry.authConfigured
  cases known : registry.byToken with
  | nil => exact absurd known something
  | cons first rest => rfl

/-- A server that was given credentials lets a guarded request through only with one of them,
and only if that one holds the capability. -/
theorem guarded_needs_credential
    (started : startup runtime json authToken raw = .ok registry)
    (configured : authToken ≠ [] ∨ strip raw ≠ []) {operation : Operation}
    {capability : Option PyStr} (guarded : operation.guard = some capability)
    (admitted : registry.restAdmits header operation = .ok true) :
    ∃ bearer principal, extractBearer header = some bearer ∧
      registry.resolve header = .ok principal ∧
      FromSettings runtime json authToken raw (PyStr.ofText bearer) principal ∧
      ∀ needed, capability = some needed → needed ∈ principal.capabilities := by
  have on := authConfigured_of_startup started configured
  have allowed : ∃ principal, registry.resolve header = .ok principal ∧
      Admits registry principal operation.guard = true := by
    cases resolved : registry.resolve header with
    | error e => simp [PrincipalRegistry.restAdmits, guarded, PrincipalRegistry.authorize,
        resolved, Except.map] at admitted
    | ok principal =>
        rw [restAdmits_of_resolve resolved, Except.ok.injEq] at admitted
        exact ⟨principal, rfl, admitted⟩
  rcases allowed with ⟨principal, resolved, admits⟩
  rcases exists_credential (by rw [guarded]; exact Option.some_ne_none _) on resolved admits with
    ⟨bearer, extracted, known⟩
  refine ⟨bearer, principal, extracted, resolved, fromSettings_of_startup started _ known, ?_⟩
  rintro needed rfl
  rw [guarded] at admits
  exact of_decide_eq_true admits

/-- The first agent proposes a memory. -/
theorem guarded_needs_credential_writer :
    ∃ registry, startup plainRuntime sampleJson [] twoAgents = .ok registry ∧
      registry.restAdmits (some "Bearer a".toList) .proposeMemory = .ok true ∧
      ∃ bearer principal, extractBearer (some "Bearer a".toList) = some bearer ∧
        registry.resolve (some "Bearer a".toList) = .ok principal ∧
        FromSettings plainRuntime sampleJson [] twoAgents (PyStr.ofText bearer) principal ∧
        ∀ needed, some capPropose = some needed → needed ∈ principal.capabilities := by
  have needs : ∀ registry : PrincipalRegistry,
      startup plainRuntime sampleJson [] twoAgents = .ok registry →
      registry.restAdmits (some "Bearer a".toList) .proposeMemory = .ok true → _ :=
    fun registry started admitted =>
      guarded_needs_credential started (.inr (by decide)) rfl admitted
  exact ⟨_, rfl, rfl, needs _ rfl rfl⟩

end Startup

/-! ## Reading a parked proposal back -/

/-- `PendingDetailResponse`, without the texts that are always the same. -/
inductive PendingDetail where
  | notFound
  | forbidden
  | forbiddenSecretFlagged (matchingPattern : Option Value)
  | ok (targetPath proposalType postimage createdAt reason matchingPattern : Option Value)
      (capture : Value)

/-- The meta of an entry, empty where it is no mapping. -/
def recordOf (entry : Mapping) : Mapping :=
  match Mapping.get entry "meta" with
  | some (.dict record) => record
  | _ => []

/-- The principal that the entry records as its proposer has this name. -/
def isOwnedBy (entry : Mapping) (name : PyStr) : Bool :=
  match Mapping.get (recordOf entry) "proposer_principal" with
  | some owner => owner.truthy && owner.isStr name
  | none => false

/-- The secret scanner flagged the entry. -/
def isFlagged (entry : Mapping) : Bool :=
  (Mapping.get (recordOf entry) "secret_scan_flagged").any Value.truthy

/-- `kb_get_pending_fn(…)`; without an entry it was not found. -/
def kbGetPending (entry : Option Mapping) (principalName : PyStr) (canResolve : Bool) :
    PendingDetail :=
  match entry with
  | none => .notFound
  | some entry =>
      let record := recordOf entry
      if !canResolve && !isOwnedBy entry principalName then .forbidden
      else if !canResolve && isFlagged entry then
        .forbiddenSecretFlagged (Mapping.get record "matching_pattern")
      else .ok ((Mapping.get entry "target_path").map Value.renderSafe)
        (Mapping.get entry "proposal_type")
        ((Mapping.get entry "postimage").map Value.renderSafe)
        (Mapping.get entry "enqueued_at")
        ((Mapping.get record "reason").map Value.renderSafe)
        ((Mapping.get record "matching_pattern").map Value.renderSafe)
        (projectCapture (Mapping.get record "capture"))

/-- The route `/api/v1/pending/{pending_id}`, behind which the tool does the same. -/
def PrincipalRegistry.getPending (registry : PrincipalRegistry) (header : Option Text)
    (entry : Option Mapping) : Except EncodeError (Option PendingDetail) :=
  (registry.authorize header none).map fun (principal, denial) =>
    if denial.isNone then some (kbGetPending entry principal.name (principal.has capResolve))
    else none

/-- The answer holds the proposed content. -/
def PendingDetail.Shows : PendingDetail → Prop
  | ok .. => True
  | _ => False

theorem shows_kbGetPending {entry : Option Mapping} {name : PyStr} {canResolve : Bool}
    (shows : (kbGetPending entry name canResolve).Shows) : ∃ found, entry = some found ∧
      (canResolve = true ∨ isOwnedBy found name = true ∧ isFlagged found = false) := by
  cases entry with
  | none => exact absurd shows id
  | some found =>
      refine ⟨found, rfl, ?_⟩
      unfold kbGetPending at shows
      cases canResolve with
      | true => exact .inl rfl
      | false =>
          cases owned : isOwnedBy found name with
          | false =>
              simp only [owned, Bool.not_false, Bool.and_self, if_true] at shows
              exact absurd shows id
          | true =>
              cases flagged : isFlagged found with
              | true =>
                  simp only [owned, flagged, Bool.not_true, Bool.not_false, Bool.and_false,
                    Bool.and_self, Bool.false_eq_true, if_false, if_true] at shows
                  exact absurd shows id
              | false => exact .inr ⟨rfl, rfl⟩

/-- Two known credentials with one name are one credential. -/
theorem token_eq_of_name_eq {first second : PyStr × Principal} (known : first ∈ registry.byToken)
    (other : second ∈ registry.byToken) (same : first.2.name = second.2.name) :
    first = second :=
  List.inj_on_of_nodup_map registry.once known other same

/-- A resolver, or the credential of the proposer and an entry without a flagged secret. -/
def MayRead (proposed header : Option Text) (reader : Principal) (entry : Mapping) : Prop :=
  capResolve ∈ reader.capabilities ∨
    isFlagged entry = false ∧ ∃ bearer, extractBearer header = some bearer ∧
      extractBearer proposed = some bearer

/-- A parked proposal is shown to the credential that proposed it or to one that could resolve
it, and to the latter alone where the secret scanner flagged it. -/
theorem draft_shown_to_proposer {proposed : Option Text} {proposer : Principal}
    (authorized : registry.authorize proposed (some capPropose) = .ok (proposer, none))
    {entry : Mapping} (recorded : Mapping.get (recordOf entry) "proposer_principal" =
      some (.str proposer.name))
    {detail : PendingDetail} (answered : registry.getPending header (some entry) =
      .ok (some detail)) (shown : detail.Shows) :
    ∃ reader, registry.resolve header = .ok reader ∧ MayRead proposed header reader entry := by
  rcases Except.map_eq_ok_iff.mp answered with ⟨⟨reader, denial⟩, asked, made⟩
  obtain ⟨resolved, admitted⟩ := authorize_cases asked
  obtain ⟨proposerResolved, proposerAdmitted⟩ := authorize_cases authorized
  refine ⟨reader, resolved, ?_⟩
  cases denial with
  | some denial => cases made
  | none =>
      have answer : kbGetPending (some entry) reader.name (reader.has capResolve) = detail :=
        Option.some.inj made
      rcases shows_kbGetPending (answer ▸ shown) with ⟨found, here, resolver | ⟨owned, plain⟩⟩
      · exact .inl (of_decide_eq_true resolver)
      · cases here
        have sameName : reader.name = proposer.name := by
          unfold isOwnedBy at owned
          rw [recorded] at owned
          have named := (Bool.and_eq_true_iff.mp owned).2
          exact (of_decide_eq_true named).symm
        rcases resolve_cases resolved with ⟨-, rfl⟩ | ⟨on, rfl | ⟨bearer, extracted, known⟩⟩
        · exact .inl (by decide)
        · have allowed := admitted.mp rfl
          simp [Admits, anonymous, on] at allowed
        · rcases resolve_cases proposerResolved with
            ⟨off, -⟩ | ⟨-, rfl | ⟨other, otherExtracted, otherKnown⟩⟩
          · rw [on] at off
            cases off
          · exact absurd (show anonymous.has capPropose = true from proposerAdmitted.mp rfl)
              (by decide)
          · have one := token_eq_of_name_eq known otherKnown sameName
            have token := PyStr.ofText_injective (congrArg Prod.fst one)
            exact .inr ⟨plain, bearer, extracted, token ▸ otherExtracted⟩

/-- The entry of a proposal of the first agent. -/
def writersDraft : Mapping :=
  [(.str (PyStr.lit "postimage"), .str (PyStr.lit "# Draft")),
    (.str (PyStr.lit "meta"),
      .dict [(.str (PyStr.lit "proposer_principal"), .str (PyStr.lit "writer"))])]

/-- The first agent reads its draft back. -/
theorem draft_shown_to_writer :
    ∃ registry proposer detail, startup plainRuntime sampleJson [] twoAgents = .ok registry ∧
      registry.authorize (some "Bearer a".toList) (some capPropose) = .ok (proposer, none) ∧
      registry.getPending (some "Bearer a".toList) (some writersDraft) = .ok (some detail) ∧
      ∃ reader, registry.resolve (some "Bearer a".toList) = .ok reader ∧
        MayRead (some "Bearer a".toList) (some "Bearer a".toList) reader writersDraft := by
  have shown : ∀ (registry : PrincipalRegistry) proposer detail,
      registry.authorize (some "Bearer a".toList) (some capPropose) = .ok (proposer, none) →
      proposer.name = PyStr.lit "writer" →
      registry.getPending (some "Bearer a".toList) (some writersDraft) = .ok (some detail) →
      detail.Shows →
      ∃ reader, registry.resolve (some "Bearer a".toList) = .ok reader ∧
        MayRead (some "Bearer a".toList) (some "Bearer a".toList) reader writersDraft := by
    intro registry proposer detail authorized named answered shows
    exact draft_shown_to_proposer authorized (by rw [named]; rfl) answered shows
  exact ⟨_, _, _, rfl, rfl, rfl, shown _ _ _ rfl rfl rfl trivial⟩

end DataOlympus.Access
