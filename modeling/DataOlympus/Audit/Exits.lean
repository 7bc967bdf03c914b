import DataOlympus.Audit.Decisions

/-!
# What every exit emits

The arguments that a function has checked can be encoded, and so can every text of the program.
Each exit therefore emits one event that is written, but for a rejection of the content gate,
whose event can be encoded exactly if the reason can.
-/

namespace DataOlympus

open Lines Transition

namespace Mapping

/-- Every argument serializes. -/
def Clean (arguments : Mapping) : Prop :=
  ∀ key value, arguments.get key = some value → value.serializes = true

theorem clean_nil : Clean [] :=
  fun _ _ absent => nomatch absent

theorem Clean.set {arguments : Mapping} (clean : arguments.Clean) {key : String} {value : Value}
    (good : value.serializes = true) : (arguments.set key value).Clean := by
  intro other found here
  by_cases same : other = key
  · rw [same, get_set] at here
    cases here
    exact good
  · rw [get_set_of_ne (PyStr.lit_injective.ne same)] at here
    exact clean other found here

theorem Clean.updated {arguments : Mapping} (clean : arguments.Clean)
    {more : List (String × Value)} (good : ∀ entry ∈ more, entry.2.serializes = true) :
    (arguments.updated more).Clean := by
  induction more generalizing arguments with
  | nil => exact clean
  | cons entry rest ih =>
      rw [List.forall_mem_cons] at good
      exact ih (clean.set good.1) good.2

end Mapping

/-- A named entry of a list with different names. -/
theorem lookup_of_mem {entries : List (String × Value)} (once : (entries.map Prod.fst).Nodup)
    {entry : String × Value} (member : entry ∈ entries) :
    entries.lookup entry.1 = some entry.2 := by
  induction entries with
  | nil => cases member
  | cons first rest ih =>
      rw [List.map_cons, List.nodup_cons] at once
      rw [List.lookup_cons]
      rcases List.mem_cons.mp member with rfl | later
      · simp
      · have other : (entry.1 == first.1) = false := by
          apply beq_false_of_ne
          intro same
          exact once.1 (same ▸ List.mem_map_of_mem later)
        rw [other]
        exact ih once.2 later

theorem mem_of_lookup {entries : List (String × Value)} {name : String} {value : Value}
    (found : entries.lookup name = some value) : (name, value) ∈ entries := by
  obtain ⟨before, after, rfl, -⟩ := List.lookup_eq_some_iff.mp found
  simp

/-! ## Exits -/

/-- One event was emitted: it repeats the response, and it is lost unless `good` holds. -/
def Told (response : Response) (emitted : List Mapping) (good : Prop) : Prop :=
  ∃ arguments : Mapping, emitted = [arguments] ∧
    arguments.get "status" = some (.str (PyStr.lit response.status)) ∧
    (∀ sha, response.commitSha = some sha → arguments.get "commit_sha" = some (.ofText sha)) ∧
    (∀ id, response.pendingId = some id → arguments.get "pending_id" = some (.ofText id)) ∧
    ∀ ts, serializesEntries (auditEvent ts arguments) = true ↔ good

/-- A function that returns has told its decision. -/
def CallResult.Tells (result : CallResult) (good : Prop) : Prop :=
  ∀ response emitted, result = .returned response emitted →
    response.status ≠ "rejected_invalid_encoding" → Told response emitted good

theorem tells_raised {good : Prop} : CallResult.raised.Tells good :=
  fun _ _ same => nomatch same

/-- The response before any event is the one about an encoding. -/
theorem tells_unencodable {reason : Option PyStr} {good : Prop} :
    (CallResult.returned { status := "rejected_invalid_encoding", reason } []).Tells good := by
  rintro response emitted ⟨⟩ different
  exact absurd rfl different

/-- The fields of an exit are fields of an event, each given once. -/
def WellFormed (event : List (String × Value)) : Prop :=
  (event.map Prod.fst).Nodup ∧ ∀ entry ∈ event, entry.1 ∈ "capture" :: auditFields

/-- What the fields of an exit say of the response. -/
structure Repeats (event : List (String × Value)) (response : Response) : Prop where
  status : event.lookup "status" = some (.str (PyStr.lit response.status))
  sha : ∀ sha, response.commitSha = some sha → event.lookup "commit_sha" = some (.ofText sha)
  id : ∀ id, response.pendingId = some id → event.lookup "pending_id" = some (.ofText id)

/-- Over a clean base an exit is lost exactly if a field of it does not serialize. -/
theorem tells_exit {auditBase : Mapping} (clean : auditBase.Clean)
    {event : List (String × Value)} {response : Response} (wellFormed : WellFormed event)
    (repeats : Repeats event response) {good : Prop}
    (same : (∀ entry ∈ event, entry.2.serializes = true) ↔ good) :
    (exit auditBase event response).Tells good := by
  obtain ⟨once, known⟩ := wellFormed
  have found : ∀ {name value}, event.lookup name = some value →
      (auditBase.updated event).get name = some value := by
    intro name value here
    rw [Mapping.get_updated once, here, Option.some_or]
  rintro _ _ ⟨⟩ -
  refine ⟨_, rfl, found repeats.status, ?_, ?_, ?_⟩
  · intro sha same
    exact found (repeats.sha sha same)
  · intro id same
    exact found (repeats.id id same)
  · intro ts
    rw [serializes_auditEvent_iff, ← same]
    constructor
    · intro good entry member
      exact good entry.1 (known entry member) entry.2 (found (lookup_of_mem once member))
    · intro good field _ value here
      rw [Mapping.get_updated once] at here
      rcases Option.or_eq_some_iff.mp here with given | ⟨-, before⟩
      · exact good _ (mem_of_lookup given)
      · exact clean field value before

/-- Over a clean base an exit with fields that serialize is told. -/
theorem tells_exit_of_serializes {auditBase : Mapping} (clean : auditBase.Clean)
    {event : List (String × Value)} {response : Response} (wellFormed : WellFormed event)
    (repeats : Repeats event response) (good : ∀ entry ∈ event, entry.2.serializes = true) :
    (exit auditBase event response).Tells True :=
  tells_exit clean wellFormed repeats (iff_of_true good trivial)

/-- An exit with a status only. -/
theorem tells_status {auditBase : Mapping} (clean : auditBase.Clean) (name : String)
    (reason : Option PyStr) :
    (exit auditBase [status name] { status := name, reason }).Tells True := by
  apply tells_exit_of_serializes clean
  · exact ⟨by simp, by simp [status, auditFields]⟩
  · exact ⟨by simp [status], nofun, nofun⟩
  · simp [status, Value.serializes]

/-- An exit with a reason of the program. -/
theorem tells_reason {auditBase : Mapping} (clean : auditBase.Clean) (name : String)
    (told : Text) (reason : Option PyStr) :
    (exit auditBase [status name, ("reason", .ofText told)]
      { status := name, reason }).Tells True := by
  apply tells_exit_of_serializes clean
  · exact ⟨by simp [status], by simp [status, auditFields]⟩
  · exact ⟨by simp [status], nofun, nofun⟩
  · simp [status, Value.serializes]

/-- An exit with a reason of the program and a pattern. -/
theorem tells_pattern {auditBase : Mapping} (clean : auditBase.Clean) (name : String)
    (told : Text) (pattern : Option Text) (reason : Option PyStr) :
    (exit auditBase [status name, ("reason", .ofText told),
      ("matching_pattern", .ofOption pattern)] { status := name, reason }).Tells True := by
  apply tells_exit_of_serializes clean
  · exact ⟨by simp [status], by simp [status, auditFields]⟩
  · exact ⟨by simp [status], nofun, nofun⟩
  · simp [status, Value.serializes]

/-! ## Values of an event -/

/-- Identities that are not refused serialize. -/
theorem serializes_of_rejectUnencodableIdentity {fields : List (String × Value)}
    (none : rejectUnencodableIdentity fields = none) :
    ∀ field ∈ fields, field.2.serializes = true := by
  induction fields with
  | nil => exact List.forall_mem_nil _
  | cons field rest ih =>
      obtain ⟨name, value⟩ := field
      unfold rejectUnencodableIdentity at none
      rw [List.forall_mem_cons]
      cases value with
      | null => exact ⟨rfl, ih none⟩
      | str s =>
          simp only at none
          split_ifs at none with encodable
          exact ⟨encodable, ih none⟩
      | _ => cases none

/-- Evidence that passes its check can be encoded. -/
theorem encodable_of_evidenceItems {items : List Value} {texts : List PyStr}
    (passed : evidenceItems items = .ok texts) : texts.all PyStr.encodable = true := by
  induction items generalizing texts with
  | nil =>
      cases passed
      rfl
  | cons item rest ih =>
      unfold evidenceItems at passed
      split at passed
      · cases passed
        rfl
      · rename_i same
        cases same
        split_ifs at passed with broken long
        obtain ⟨others, checked, rfl⟩ := Except.map_eq_ok_iff.mp passed
        rw [List.all_cons, ih checked, Bool.and_true]
        simpa using broken
      · cases passed

theorem encodable_of_validateEvidence {evidence : Value} {texts : List PyStr}
    (passed : validateEvidence evidence = .ok texts) : texts.all PyStr.encodable = true := by
  unfold validateEvidence at passed
  split at passed
  · split_ifs at passed
    exact encodable_of_evidenceItems passed
  · cases passed

/-- Redacted evidence serializes. -/
theorem serializes_redactEvidence (config : GateConfig) {items : List PyStr}
    (encodable : items.all PyStr.encodable = true) :
    (redactEvidence config items).serializes = true := by
  unfold redactEvidence
  split
  · rfl
  · rw [Value.serializes]
    clear * - encodable
    induction items with
    | nil => rfl
    | cons item rest ih =>
        rw [List.all_cons, Bool.and_eq_true] at encodable
        rw [List.map_cons, serializesAll, ih encodable.2, Bool.and_true]
        cases config.scanSecrets item with
        | none => exact encodable.1
        | some found => exact serializes_ofText _

@[simp]
theorem serializes_flagOrNone (flag : Bool) : (flagOrNone flag).serializes = true := by
  cases flag <;> rfl

@[simp]
theorem serializes_capture (capture : CaptureEnd) : capture.value.serializes = true := by
  cases capture with
  | accepted envelope =>
      rw [CaptureEnd.value, Value.serializes, serializesEntries_iff]
      intro entry member
      obtain ⟨field, -, rfl⟩ := List.mem_map.mp member
      exact ⟨serializes_ofText _, serializes_ofText _⟩
  | _ => rfl

/-! ## The commit -/

/-- What a function is told of its commit can be encoded. -/
def WriteEnd.Encodable : WriteEnd → Prop
  | .rejected rejection => ∀ reason ∈ rejection.reason, reason.encodable = true
  | _ => True

namespace CommitCalls

/-- A gate before the content gate gives a reason of the program. -/
theorem encodable_stopAt {gates : List (String × GateEnd)} {stop : WriteEnd}
    (found : stopAt gates = some stop) : stop.Encodable := by
  induction gates with
  | nil => cases found
  | cons gate rest ih =>
      obtain ⟨name, gateEnd⟩ := gate
      cases gateEnd with
      | passes => exact ih found
      | raises =>
          cases found
          trivial
      | rejects reason pattern marks =>
          cases found
          intro shown member
          obtain ⟨text, -, rfl⟩ := Option.map_eq_some_iff.mp member
          exact PyStr.encodable_ofText text

theorem encodable_stopBefore {calls : CommitCalls} {stop : WriteEnd}
    (found : calls.stopBefore = some stop) : stop.Encodable := by
  unfold stopBefore at found
  split at found
  · cases found
    trivial
  · cases found
    trivial
  · split_ifs at found
    · exact encodable_stopAt found
    · cases found
      trivial

end CommitCalls

/-- What a commit tells can be encoded exactly if what the content gate quotes can. -/
theorem Runtime.encodable_commitInWorktree_iff {runtime : Runtime} {config : GateConfig}
    {calls : CommitCalls} {targetPath : RelPath} {postimage : PyStr} {written : WriteEnd}
    (ended : runtime.commitInWorktree config calls targetPath postimage = written)
    (returns : written ≠ .raised) :
    written.Encodable ↔ (calls.stopBefore = none →
      runtime.QuotesEncodable config targetPath postimage.readable calls.idMap
        (some calls.worktree)) := by
  unfold commitInWorktree at ended
  cases stopped : calls.stopBefore with
  | some stop =>
      rw [stopped] at ended
      cases ended
      exact iff_of_true (CommitCalls.encodable_stopBefore stopped) nofun
  | none =>
      rw [stopped] at ended
      cases checked : runtime.validatePostimage config targetPath postimage.readable calls.idMap
          (some calls.worktree) [] with
      | error raised =>
          rw [checked] at ended
          exact absurd ended.symm returns
      | ok errors =>
          rw [checked] at ended
          rw [← encodable_validatePostimage_iff checked, forall_prop_of_true rfl]
          cases errors with
          | nil =>
              refine iff_of_true ?_ encodable_nil
              dsimp only at ended
              split at ended
              · cases ended
                trivial
              · cases ended
                trivial
              · split_ifs at ended
                · cases ended
                  trivial
                · cases made : calls.sha with
                  | none =>
                      rw [made] at ended
                      cases ended
                      trivial
                  | some sha =>
                      rw [made] at ended
                      cases ended
                      trivial
          | cons first rest =>
              cases ended
              simp only [WriteEnd.Encodable, Option.mem_some_iff, forall_eq']
              rw [PyStr.encodable_join (PyStr.encodable_lit _), List.all_map, List.all_eq_true]
              exact Iff.rfl

end DataOlympus
