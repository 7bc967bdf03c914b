import DataOlympus.Control.Except
import DataOlympus.Python.Mapping
import Mathlib.Data.List.Nodup

/-!
# Hooks in a settings document

`kb enforce` adds marked hook entries to the events of a JSON document, and strips the marked
entries of any provider before it adds its own and when it uninstalls.
-/

namespace DataOlympus.Installer

/-! ## The provider -/

/-- What the installer can raise over a document. -/
inductive HookError where
  | attributeError
  | typeError

/-- `MARKER`. -/
def marker : String :=
  "data-olympus-enforce"

/-- `SHIM_VERSION`. -/
def shimVersion : String :=
  "1"

/-- `word in value`. -/
def contains (word : String) : Value → Except HookError Bool
  | .dict entries => .ok (entries.any fun entry => entry.1.isStr (PyStr.lit word))
  | .list items => .ok (items.any fun item => item.isStr (PyStr.lit word))
  | .str s => .ok (s.tails.any fun suffix => (PyStr.lit word).isPrefixOf suffix)
  | _ => .error .typeError

/-- What a loop over a value goes through. -/
def iterate : Value → Except HookError (List Value)
  | .list items => .ok items
  | .dict entries => .ok (entries.map Prod.fst)
  | .str s => .ok (s.map fun point => .str [point])
  | _ => .error .typeError

/-- A loop that keeps some results. -/
def keepEach {α β : Type} (f : α → Except HookError (Option β)) :
    List α → Except HookError (List β)
  | [] => .ok []
  | item :: rest => do
      let first ← f item
      let more ← keepEach f rest
      return first.toList ++ more

/-- `[h for h in … if MARKER not in h]`, for one entry. -/
def keepHook (hook : Value) : Except HookError (Option Value) :=
  (contains marker hook).map fun managed => if managed then none else some hook

/-- The round of `_strip_managed` for a block. -/
def keepBlock : Value → Except HookError (Option Value)
  | .dict block => do
      let hooks ← iterate ((Mapping.get block "hooks").getD (.list []))
      let kh ← keepEach keepHook hooks
      return if kh.isEmpty then none else some (.dict (Mapping.set block "hooks" (.list kh)))
  | _ => .error .attributeError

/-- The round of `_strip_managed` for an event. -/
def keepEvent (event : Value × Value) : Except HookError (Option (Value × Value)) := do
  let blocks ← iterate event.2
  let kept ← keepEach keepBlock blocks
  return if kept.isEmpty then none else some (event.1, .list kept)

/-- `_strip_managed`. -/
def stripManaged : Value → Except HookError Mapping
  | .dict hooks => keepEach keepEvent hooks
  | _ => .error .attributeError

/-- An event that a provider hooks into. -/
structure HookEvent where
  event : String
  mode : String
  matcher : Option String

/-- `HookFileProvider`. -/
structure HookFileProvider where
  hookBin : PyStr
  name : String
  events : List HookEvent
  dialect : String
  enforceMode : String

namespace HookFileProvider

variable (provider : HookFileProvider)

/-- `_command`. -/
def command (mode : String) : PyStr :=
  let dialect := if provider.dialect = "claude" then "" else " --dialect " ++ provider.dialect
  provider.hookBin ++ PyStr.lit (" " ++ mode ++ dialect ++ " --agent " ++ provider.name)

/-- `_managed_block`. -/
def managedBlock (mode : String) (matcher : Option String) : Value :=
  let entry := Mapping.ofFields
    [("type", .str (PyStr.lit "command")), ("command", .str (provider.command mode)),
      (marker, .str (PyStr.lit shimVersion))]
  .dict (Mapping.ofFields
    (("hooks", .list [.dict entry]) ::
      (matcher.map fun matcher => ("matcher", .str (PyStr.lit matcher))).toList))

/-- The events of the mode in which the provider installs. -/
def installedEvents : List HookEvent :=
  if provider.enforceMode = "soft" then provider.events.filter fun event => event.mode ≠ "pre-tool"
  else provider.events

/-- `hooks.setdefault(event, []).append(block)`, where every event has a list. -/
def appendBlock (event : String) (block : Value) : Mapping → Mapping
  | [] => [(.str (PyStr.lit event), .list [block])]
  | entry :: rest =>
      if entry.1.isStr (PyStr.lit event) then
        match entry.2 with
        | .list blocks => (entry.1, .list (blocks ++ [block])) :: rest
        | _ => entry :: rest
      else entry :: appendBlock event block rest

/-- The events of the provider are added. -/
def addEvents (hooks : Mapping) : Mapping :=
  provider.installedEvents.foldl
    (fun hooks event =>
      appendBlock event.event (provider.managedBlock event.mode event.matcher) hooks) hooks

/-- `install`, from the data of the document to the data that is written. -/
def install : Value → Except HookError Value
  | .dict data => do
      let hooks ← stripManaged ((Mapping.get data "hooks").getD (.dict []))
      return .dict (Mapping.set data "hooks" (.dict (provider.addEvents hooks)))
  | _ => .error .attributeError

end HookFileProvider

/-- `uninstall`; nothing is written where there is nothing to uninstall. -/
def uninstall (data : Value) : Except HookError (Option Value) := do
  let found ← contains "hooks" data
  if found then
    match data with
    | .dict data => do
        let hooks ← stripManaged ((Mapping.get data "hooks").getD .null)
        return some (.dict
          (if hooks.isEmpty then Mapping.without data "hooks"
            else Mapping.set data "hooks" (.dict hooks)))
    | _ => .error .typeError
  else return none

/-- `_load_json`; an absent document and one of white space are empty. -/
def loadJson (file : Option Value) : Value :=
  file.getD (.dict [])

/-- The document after an install, which an error leaves alone. -/
def HookFileProvider.afterInstall (provider : HookFileProvider)
    (file : Option Value) : Option Value :=
  match provider.install (loadJson file) with
  | .ok data => some data
  | .error _ => file

/-- The document after an uninstall. -/
def afterUninstall (file : Option Value) : Option Value :=
  match uninstall (loadJson file) with
  | .ok (some data) => some data
  | _ => file

/-! ## What belongs to the operator -/

/-- An entry with the marker among its keys. -/
def isTagged : Value → Bool
  | .dict entry => entry.any fun field => field.1.isStr (PyStr.lit marker)
  | _ => false

/-- A block without its marked entries, unless it has only such ones. -/
def ownedBlock (block : Value) : Option Value :=
  match block with
  | .dict fields =>
      match Mapping.get fields "hooks" with
      | some (.list hooks) =>
          let owned := hooks.filter fun hook => !isTagged hook
          if !hooks.any isTagged then some block
          else if owned.isEmpty then none
          else some (.dict (Mapping.set fields "hooks" (.list owned)))
      | _ => some block
  | _ => some block

/-- An event without marked entries, unless it has only such ones. -/
def ownedEvent (event : Value × Value) : Option (Value × Value) :=
  match event.2 with
  | .list blocks =>
      let owned := blocks.filterMap ownedBlock
      if owned.isEmpty && !blocks.isEmpty then none else some (event.1, .list owned)
  | _ => some event

/-- The events, blocks and entries of the operator. -/
def ownedEvents (data : Value) : Mapping :=
  match data with
  | .dict fields =>
      match Mapping.get fields "hooks" with
      | some (.dict hooks) => hooks.filterMap ownedEvent
      | _ => []
  | _ => []

/-- In the mappings and lists of a value, a mapping has a key once. -/
inductive KeysOnce : Value → Prop
  | dict {entries : Mapping} (once : (entries.map Prod.fst).Nodup)
      (inside : ∀ entry ∈ entries, KeysOnce entry.2) : KeysOnce (.dict entries)
  | list {items : List Value} (inside : ∀ item ∈ items, KeysOnce item) : KeysOnce (.list items)
  | atom {value : Value} (no_dict : ∀ entries, value ≠ .dict entries)
      (no_list : ∀ items, value ≠ .list items) : KeysOnce value

/-- A settings document. -/
structure SettingsDocument where
  file : Option Value
  once : KeysOnce (loadJson file)

/-- Installing again changes nothing, and uninstalling gives back what belongs to the operator. -/
def HookFileProvider.Surgical (provider : HookFileProvider) (document : SettingsDocument) : Prop :=
  provider.afterInstall (provider.afterInstall document.file) =
      provider.afterInstall document.file ∧
    ownedEvents (loadJson (afterUninstall (provider.afterInstall document.file))) =
      ownedEvents (loadJson document.file)

/-! ## Shapes -/

/-- An entry in which the marker can be looked for. -/
def takesHook : Value → Bool
  | .dict _ => true
  | .list _ => true
  | .str _ => true
  | _ => false

/-- A value that a loop can go through. -/
def members : Value → Option (List Value)
  | .list items => some items
  | .dict entries => some (entries.map Prod.fst)
  | .str s => some (s.map fun point => .str [point])
  | _ => none

/-- A block that the installer does not fail over. -/
def takesBlock : Value → Bool
  | .dict block =>
      (members ((Mapping.get block "hooks").getD (.list []))).any fun hooks => hooks.all takesHook
  | _ => false

/-- An event that the installer does not fail over. -/
def takesEvent (event : Value × Value) : Bool :=
  (members event.2).any fun blocks => blocks.all takesBlock

/-- Data that the installer does not fail over. -/
def takes : Value → Bool
  | .dict data =>
      match (Mapping.get data "hooks").getD (.dict []) with
      | .dict hooks => hooks.all takesEvent
      | _ => false
  | _ => false

/-- A block with a list of entries, not empty, of which the marked ones are mappings. -/
def Settled (block : Value) : Prop :=
  ∃ fields hooks, block = .dict fields ∧ Mapping.get fields "hooks" = some (.list hooks) ∧
    hooks ≠ [] ∧ ∀ hook ∈ hooks, contains marker hook = .ok true → isTagged hook = true

/-- Every event has a list of such blocks, not empty. -/
def SettledEvents (data : Value) : Prop :=
  ∀ fields hooks, data = .dict fields → Mapping.get fields "hooks" = some (.dict hooks) →
    ∀ event ∈ hooks, ∃ blocks, event.2 = .list blocks ∧ blocks ≠ [] ∧
      ∀ block ∈ blocks, Settled block

/-! ## What is kept -/

/-- An entry that is taken for a marked one. -/
def holdsMarker (hook : Value) : Bool :=
  match contains marker hook with
  | .ok found => found
  | .error _ => false

/-- What is kept of a block. -/
def keptBlock : Value → Option Value
  | .dict block =>
      let hooks := (members ((Mapping.get block "hooks").getD (.list []))).getD []
      let kh := hooks.filter fun hook => !holdsMarker hook
      if kh.isEmpty then none else some (.dict (Mapping.set block "hooks" (.list kh)))
  | _ => none

/-- What is kept of an event. -/
def keptEvent (event : Value × Value) : Option (Value × Value) :=
  let kept := ((members event.2).getD []).filterMap keptBlock
  if kept.isEmpty then none else some (event.1, .list kept)

variable {α β : Type} {event : Value × Value} {hooks : Mapping} {block hook data : Value}

/-- A loop whose rounds do not fail keeps what they keep. -/
theorem keepEach_eq_ok_iff {f : α → Except HookError (Option β)} {g : α → Option β}
    {fine : α → Bool} (round : ∀ item result, f item = .ok result ↔
      fine item = true ∧ result = g item) {items : List α} {kept : List β} :
    keepEach f items = .ok kept ↔ items.all fine = true ∧ kept = items.filterMap g := by
  induction items generalizing kept with
  | nil =>
      rw [keepEach, Except.ok.injEq]
      exact ⟨fun same => ⟨rfl, same.symm⟩, fun both => both.2.symm⟩
  | cons item rest ih =>
      rw [keepEach, Except.bind_eq_ok_iff, List.all_cons, Bool.and_eq_true]
      have kept_cons : (item :: rest).filterMap g = (g item).toList ++ rest.filterMap g := by
        cases found : g item with
        | none => rw [List.filterMap_cons_none found]; rfl
        | some value => rw [List.filterMap_cons_some found]; rfl
      rw [kept_cons]
      constructor
      · rintro ⟨first, here, further⟩
        obtain ⟨more, later, last⟩ := Except.bind_eq_ok_iff.mp further
        obtain ⟨good, rfl⟩ := (round item first).mp here
        obtain ⟨all, rfl⟩ := ih.mp later
        cases last
        exact ⟨⟨good, all⟩, rfl⟩
      · rintro ⟨⟨good, all⟩, rfl⟩
        refine ⟨g item, (round item _).mpr ⟨good, rfl⟩, ?_⟩
        exact Except.bind_eq_ok_iff.mpr ⟨_, ih.mpr ⟨all, rfl⟩, rfl⟩

theorem keepHook_eq_ok_iff {result : Option Value} :
    keepHook hook = .ok result ↔
      takesHook hook = true ∧ result = if holdsMarker hook then none else some hook := by
  cases hook with
  | dict entries => exact ⟨fun same => ⟨rfl, (Except.ok.inj same).symm⟩, fun both => both.2 ▸ rfl⟩
  | list items => exact ⟨fun same => ⟨rfl, (Except.ok.inj same).symm⟩, fun both => both.2 ▸ rfl⟩
  | str s => exact ⟨fun same => ⟨rfl, (Except.ok.inj same).symm⟩, fun both => both.2 ▸ rfl⟩
  | _ =>
      constructor
      · intro impossible
        cases impossible
      · rintro ⟨impossible, _⟩
        cases impossible

theorem filterMap_unmarked (hooks : List Value) :
    hooks.filterMap (fun hook => if holdsMarker hook then none else some hook) =
      hooks.filter fun hook => !holdsMarker hook := by
  induction hooks with
  | nil => rfl
  | cons hook rest ih =>
      rw [List.filterMap_cons, List.filter_cons, ih]
      cases holdsMarker hook with
      | false => rfl
      | true => rfl

theorem iterate_eq_ok_iff {value : Value} {items : List Value} :
    iterate value = .ok items ↔ members value = some items := by
  cases value with
  | list items => rw [iterate, members, Except.ok.injEq, Option.some.injEq]
  | dict entries => rw [iterate, members, Except.ok.injEq, Option.some.injEq]
  | str s => rw [iterate, members, Except.ok.injEq, Option.some.injEq]
  | _ =>
      constructor
      · intro impossible
        cases impossible
      · intro impossible
        cases impossible

theorem keepBlock_eq_ok_iff {result : Option Value} :
    keepBlock block = .ok result ↔ takesBlock block = true ∧ result = keptBlock block := by
  cases block with
  | dict fields =>
      have rounds := @keepEach_eq_ok_iff _ _ keepHook _ takesHook
        (fun hook result => @keepHook_eq_ok_iff hook result)
      rw [keepBlock, Except.bind_eq_ok_iff, takesBlock, keptBlock]
      constructor
      · rintro ⟨hooks, looped, further⟩
        obtain ⟨kh, kept, last⟩ := Except.bind_eq_ok_iff.mp further
        obtain ⟨all, rfl⟩ := rounds.mp kept
        rw [iterate_eq_ok_iff.mp looped, Option.any_some, Option.getD_some]
        rw [filterMap_unmarked] at last
        exact ⟨all, (Except.ok.inj last).symm⟩
      · rintro ⟨fine, rfl⟩
        cases looped : members ((Mapping.get fields "hooks").getD (.list [])) with
        | none =>
            rw [looped] at fine
            cases fine
        | some hooks =>
            rw [looped, Option.any_some] at fine
            refine ⟨hooks, iterate_eq_ok_iff.mpr looped, ?_⟩
            refine Except.bind_eq_ok_iff.mpr ⟨_, rounds.mpr ⟨fine, rfl⟩, ?_⟩
            rw [filterMap_unmarked]
            rfl
  | _ =>
      constructor
      · intro impossible
        cases impossible
      · rintro ⟨impossible, _⟩
        cases impossible

theorem keepEvent_eq_ok_iff {result : Option (Value × Value)} :
    keepEvent event = .ok result ↔ takesEvent event = true ∧ result = keptEvent event := by
  have rounds := @keepEach_eq_ok_iff _ _ keepBlock _ takesBlock
    (fun block result => @keepBlock_eq_ok_iff block result)
  rw [keepEvent, Except.bind_eq_ok_iff, takesEvent, keptEvent]
  constructor
  · rintro ⟨blocks, looped, further⟩
    obtain ⟨kept, found, last⟩ := Except.bind_eq_ok_iff.mp further
    obtain ⟨all, rfl⟩ := rounds.mp found
    rw [iterate_eq_ok_iff.mp looped, Option.any_some, Option.getD_some]
    exact ⟨all, (Except.ok.inj last).symm⟩
  · rintro ⟨fine, rfl⟩
    cases looped : members event.2 with
    | none =>
        rw [looped] at fine
        cases fine
    | some blocks =>
        rw [looped, Option.any_some] at fine
        exact ⟨blocks, iterate_eq_ok_iff.mpr looped,
          Except.bind_eq_ok_iff.mpr ⟨_, rounds.mpr ⟨fine, rfl⟩, rfl⟩⟩

/-- Stripping fails over no event that is taken, and keeps what is kept of each. -/
theorem stripManaged_eq_ok_iff {kept : Mapping} :
    stripManaged (.dict hooks) = .ok kept ↔
      hooks.all takesEvent = true ∧ kept = hooks.filterMap keptEvent :=
  keepEach_eq_ok_iff fun event result => @keepEvent_eq_ok_iff event result

/-! ## What is kept stays -/

theorem holdsMarker_of_isTagged (tagged : isTagged hook = true) : holdsMarker hook = true := by
  cases hook with
  | dict entry => exact tagged
  | _ => cases tagged

theorem isTagged_managedEntry (fields : List (String × Value)) (version : Value) :
    holdsMarker (.dict (Mapping.ofFields (fields ++ [(marker, version)]))) = true := by
  change (Mapping.ofFields (fields ++ [(marker, version)])).any _ = true
  rw [Mapping.ofFields, List.map_append, List.any_append, Bool.or_eq_true]
  right
  rw [List.map_singleton, List.any_cons, Bool.or_eq_true]
  exact .inl (Value.isStr_iff.mpr rfl)

/-- The block of a provider is one that is stripped. -/
theorem keptBlock_managedBlock (provider : HookFileProvider) (mode : String)
    (matcher : Option String) :
    keptBlock (provider.managedBlock mode matcher) = none ∧
      takesBlock (provider.managedBlock mode matcher) = true := by
  have hooks : ∀ (entry : Value) (more : List (String × Value)),
      Mapping.get (Mapping.ofFields (("hooks", .list [entry]) :: more)) "hooks" =
        some (.list [entry]) := by
    intro entry more
    rw [Mapping.get_ofFields]
    rfl
  have marked := isTagged_managedEntry
    [("type", .str (PyStr.lit "command")), ("command", .str (provider.command mode))]
    (.str (PyStr.lit shimVersion))
  constructor
  · rw [HookFileProvider.managedBlock, keptBlock, hooks, Option.getD_some, members,
      Option.getD_some]
    dsimp only [List.cons_append, List.nil_append] at marked
    rw [List.filter_cons_of_neg (by rw [marked]; decide)]
    rfl
  · rw [HookFileProvider.managedBlock, takesBlock, hooks]
    rfl

/-- What is kept of a block is kept once more, and belongs to the operator. -/
theorem keptBlock_of_keptBlock {kept : Value} (fine : takesBlock block = true)
    (found : keptBlock block = some kept) :
    keptBlock kept = some kept ∧ takesBlock kept = true ∧ ownedBlock kept = some kept := by
  cases block with
  | dict fields =>
      rw [takesBlock] at fine
      rw [keptBlock] at found
      obtain ⟨hooks, looped, all⟩ := (Option.any_eq_true _ _).mp fine
      rw [looped, Option.getD_some] at found
      split at found
      · cases found
      · rename_i something
        cases found
        have again : (hooks.filter fun hook => !holdsMarker hook).filter
            (fun hook => !holdsMarker hook) = hooks.filter fun hook => !holdsMarker hook :=
          List.filter_filter.trans (List.filter_congr fun hook _ => Bool.and_self _)
        have untagged : ((hooks.filter fun hook => !holdsMarker hook).any isTagged) = false := by
          rw [List.any_eq_false]
          intro hook member tagged
          have unmarked := (List.mem_filter.mp member).2
          rw [holdsMarker_of_isTagged tagged] at unmarked
          cases unmarked
        refine ⟨?_, ?_, ?_⟩
        · rw [keptBlock, Mapping.get_set, Option.getD_some, members, Option.getD_some]
          rw [again, if_neg something, Mapping.set_set]
        · rw [takesBlock, Mapping.get_set, Option.getD_some, members, Option.any_some]
          rw [List.all_eq_true] at all ⊢
          exact fun hook member => all hook (List.mem_of_mem_filter member)
        · rw [ownedBlock, Mapping.get_set]
          dsimp only
          rw [untagged]
          rfl
  | _ => cases fine

/-- What a filter leaves alone. -/
theorem filterMap_eq_self {f : α → Option α} {items : List α}
    (same : ∀ item ∈ items, f item = some item) : items.filterMap f = items := by
  induction items with
  | nil => rfl
  | cons item rest ih =>
      obtain ⟨here, further⟩ := List.forall_mem_cons.mp same
      rw [List.filterMap_cons_some here, ih further]

theorem mem_filterMap_kept {f : α → Option α} {fine : α → Bool} {p : α → Prop} {items : List α}
    (all : items.all fine = true)
    (kept : ∀ item result, fine item = true → f item = some result → p result) :
    ∀ result ∈ items.filterMap f, p result := by
  intro result member
  obtain ⟨item, among, found⟩ := List.mem_filterMap.mp member
  exact kept item result (List.all_eq_true.mp all item among) found

theorem keptEvent_of_keptEvent {kept : Value × Value} (fine : takesEvent event = true)
    (found : keptEvent event = some kept) :
    keptEvent kept = some kept ∧ takesEvent kept = true ∧ ownedEvent kept = some kept := by
  rw [takesEvent] at fine
  rw [keptEvent] at found
  obtain ⟨blocks, looped, all⟩ := (Option.any_eq_true _ _).mp fine
  rw [looped, Option.getD_some] at found
  split at found
  · cases found
  · rename_i something
    cases found
    have stays := mem_filterMap_kept all fun block kept fine found =>
      @keptBlock_of_keptBlock block kept fine found
    have again := filterMap_eq_self fun block member => (stays block member).1
    have owned := filterMap_eq_self fun block member => (stays block member).2.2
    refine ⟨?_, ?_, ?_⟩
    · rw [keptEvent, members, Option.getD_some, again, if_neg something]
    · rw [takesEvent, members, Option.any_some, List.all_eq_true]
      exact fun block member => (stays block member).2.1
    · rw [ownedEvent]
      dsimp only
      rw [owned, Bool.eq_false_iff.mpr something]
      rfl

/-- A block of a provider is stripped again. -/
theorem filterMap_appendBlock {name : String} (gone : keptBlock block = none)
    (fine : takesBlock block = true) (all : hooks.all takesEvent = true) :
    (HookFileProvider.appendBlock name block hooks).filterMap keptEvent =
        hooks.filterMap keptEvent ∧
      (HookFileProvider.appendBlock name block hooks).all takesEvent = true := by
  induction hooks with
  | nil =>
      refine ⟨?_, ?_⟩
      · have nothing : keptEvent (.str (PyStr.lit name), .list [block]) = none := by
          rw [keptEvent, members, Option.getD_some, List.filterMap_cons_none gone]
          rfl
        rw [HookFileProvider.appendBlock, List.filterMap_cons_none nothing]
      · rw [HookFileProvider.appendBlock, List.all_cons, takesEvent, members, Option.any_some,
          List.all_cons, fine]
        rfl
  | cons entry rest ih =>
      rw [List.all_cons, Bool.and_eq_true] at all
      obtain ⟨here, further⟩ := all
      rw [HookFileProvider.appendBlock]
      split
      · split
        · rename_i blocks same
          have kept : keptEvent (entry.1, .list (blocks ++ [block])) = keptEvent entry := by
            rw [keptEvent, keptEvent, same, members, Option.getD_some, List.filterMap_append,
              List.filterMap_cons_none gone, List.filterMap_nil, List.append_nil]
            rfl
          have takes : takesEvent (entry.1, .list (blocks ++ [block])) = true := by
            rw [takesEvent, same, members, Option.any_some] at here
            rw [takesEvent, members, Option.any_some, List.all_append, here, List.all_cons, fine]
            rfl
          refine ⟨?_, ?_⟩
          · rw [List.filterMap_cons, List.filterMap_cons, kept]
          · rw [List.all_cons, takes, further]
            rfl
        · exact ⟨rfl, by rw [List.all_cons, here, further]; rfl⟩
      · obtain ⟨same, takes⟩ := ih further
        refine ⟨?_, ?_⟩
        · rw [List.filterMap_cons, List.filterMap_cons, same]
        · rw [List.all_cons, here, takes]
          rfl

theorem filterMap_addEvents (provider : HookFileProvider) (all : hooks.all takesEvent = true) :
    (provider.addEvents hooks).filterMap keptEvent = hooks.filterMap keptEvent ∧
      (provider.addEvents hooks).all takesEvent = true := by
  unfold HookFileProvider.addEvents
  induction provider.installedEvents generalizing hooks with
  | nil => exact ⟨rfl, all⟩
  | cons event rest ih =>
      obtain ⟨gone, fine⟩ := keptBlock_managedBlock provider event.mode event.matcher
      obtain ⟨same, takes⟩ := @filterMap_appendBlock hooks _ event.event gone fine all
      rw [List.foldl_cons]
      obtain ⟨further, last⟩ := ih takes
      exact ⟨further.trans same, last⟩

/-! ## What is lost -/

/-- Two filters that keep something of the same items keep the same exactly when they do for
every item. -/
theorem filterMap_eq_iff {f g : α → Option β} {items : List α}
    (less : ∀ item ∈ items, g item = none → f item = none) :
    items.filterMap f = items.filterMap g ↔ ∀ item ∈ items, f item = g item := by
  refine ⟨?_, fun same => List.filterMap_congr same⟩
  intro same
  have shorter : ∀ {rest : List α}, (∀ item ∈ rest, g item = none → f item = none) →
      (rest.filterMap f).length ≤ (rest.filterMap g).length := by
    intro rest less
    induction rest with
    | nil => exact le_rfl
    | cons item rest ih =>
        obtain ⟨here, further⟩ := List.forall_mem_cons.mp less
        have later := ih further
        cases kept : g item with
        | none => rwa [List.filterMap_cons_none kept, List.filterMap_cons_none (here kept)]
        | some value =>
            rw [List.filterMap_cons_some kept, List.filterMap_cons]
            split
            · exact Nat.le_succ_of_le later
            · exact Nat.succ_le_succ later
  induction items with
  | nil => exact List.forall_mem_nil _
  | cons item rest ih =>
      obtain ⟨here, further⟩ := List.forall_mem_cons.mp less
      cases kept : g item with
      | none =>
          rw [List.filterMap_cons_none kept, List.filterMap_cons_none (here kept)] at same
          exact List.forall_mem_cons.mpr ⟨(here kept).trans kept.symm, ih further same⟩
      | some value =>
          cases left : f item with
          | none =>
              have bound := shorter further
              rw [List.filterMap_cons_none left, List.filterMap_cons_some kept] at same
              rw [same, List.length_cons] at bound
              omega
          | some other =>
              rw [List.filterMap_cons_some left, List.filterMap_cons_some kept] at same
              obtain ⟨rfl, rest_same⟩ := List.cons.inj same
              exact List.forall_mem_cons.mpr ⟨left.trans kept.symm, ih further rest_same⟩

theorem set_eq_self {entries : Mapping} {key : String} {value : Value}
    (once : (entries.map Prod.fst).Nodup) (found : entries.get key = some value) :
    Mapping.set entries key value = entries := by
  induction entries with
  | nil => cases found
  | cons entry rest ih =>
      rw [List.map_cons, List.nodup_cons] at once
      rw [Mapping.get_cons] at found
      split at found
      · rename_i here
        have present : ((entry :: rest).any fun other => other.1.isStr (PyStr.lit key)) = true := by
          rw [List.any_cons, here, Bool.true_or]
        have others : ∀ other ∈ rest, ¬other.1.isStr (PyStr.lit key) = true := by
          intro other member same
          have equal : other.1 = entry.1 :=
            (Value.isStr_iff.mp same).trans (Value.isStr_iff.mp here).symm
          exact once.1 (equal ▸ List.mem_map_of_mem member)
        rw [Mapping.set_of_present present, List.map_cons, if_pos here]
        cases found
        have kept : (rest.map fun other =>
            if other.1.isStr (PyStr.lit key) then (other.1, entry.2) else other) = rest := by
          rw [List.map_congr_left (g := id), List.map_id]
          intro other member
          rw [if_neg (others other member)]
          rfl
        rw [kept]
      · rename_i different
        have further := ih once.2 found
        cases present : rest.any fun other => other.1.isStr (PyStr.lit key) with
        | true =>
            have whole : ((entry :: rest).any fun other => other.1.isStr (PyStr.lit key)) = true := by
              rw [List.any_cons, present, Bool.or_true]
            rw [Mapping.set_of_present present] at further
            rw [Mapping.set_of_present whole, List.map_cons, if_neg different, further]
        | false =>
            rw [Mapping.set_of_absent present] at further
            exact absurd further (by simp)

/-- The hooks that an assigned block has. -/
theorem hooks_of_set_eq {fields other : Mapping} {hooks : List Value}
    (same : some (Value.dict (Mapping.set fields "hooks" (.list hooks))) = some (.dict other)) :
    Mapping.get other "hooks" = some (.list hooks) := by
  cases same
  exact Mapping.get_set ..

theorem kept_eq_owned_iff {fields : Mapping} {hooks : List Value}
    (distinct : (fields.map Prod.fst).Nodup)
    (found : Mapping.get fields "hooks" = some (.list hooks)) :
    keptBlock (.dict fields) = ownedBlock (.dict fields) ↔ hooks ≠ [] ∧
      ∀ hook ∈ hooks, holdsMarker hook = true → isTagged hook = true := by
  have kept : keptBlock (.dict fields) =
      if (hooks.filter fun hook => !holdsMarker hook).isEmpty then none
      else some (.dict (Mapping.set fields "hooks"
        (.list (hooks.filter fun hook => !holdsMarker hook)))) := by
    rw [keptBlock, found]
    rfl
  have owned : ownedBlock (.dict fields) =
      if !hooks.any isTagged then some (.dict fields)
      else if (hooks.filter fun hook => !isTagged hook).isEmpty then none
      else some (.dict (Mapping.set fields "hooks"
        (.list (hooks.filter fun hook => !isTagged hook)))) := by
    rw [ownedBlock, found]
  rw [kept, owned]
  by_cases all : ∀ hook ∈ hooks, holdsMarker hook = true → isTagged hook = true
  · have same : (hooks.filter fun hook => !holdsMarker hook) =
        hooks.filter fun hook => !isTagged hook := by
      apply List.filter_congr
      intro hook member
      congr 1
      exact Bool.eq_iff_iff.mpr ⟨all hook member, holdsMarker_of_isTagged⟩
    rw [same]
    cases tagged : hooks.any isTagged with
    | true =>
        apply iff_of_true rfl
        refine ⟨?_, all⟩
        rintro rfl
        cases tagged
    | false =>
        have untagged : (hooks.filter fun hook => !isTagged hook) = hooks := by
          rw [List.filter_eq_self]
          intro hook member
          rw [Bool.not_eq_true', Bool.eq_false_iff]
          exact List.any_eq_false.mp tagged hook member
        rw [untagged, and_iff_left all]
        cases hooks with
        | nil =>
            apply iff_of_false
            · intro impossible
              cases impossible
            · exact fun something => something rfl
        | cons hook rest =>
            apply iff_of_true _ (List.cons_ne_nil _ _)
            rw [set_eq_self distinct found]
            rfl
  · apply iff_of_false _ fun both => all both.2
    intro same
    push Not at all
    obtain ⟨hook, member, marked, untagged⟩ := all
    have dropped : hook ∉ hooks.filter fun hook => !holdsMarker hook := by
      intro kept
      have clean := (List.mem_filter.mp kept).2
      rw [marked] at clean
      cases clean
    have stays : hook ∈ hooks.filter fun hook => !isTagged hook := by
      rw [List.mem_filter, Bool.eq_false_iff.mpr untagged]
      exact ⟨member, rfl⟩
    have enough : (hooks.filter fun hook => !isTagged hook).isEmpty = false := by
      rw [List.isEmpty_eq_false_iff]
      exact List.ne_nil_of_mem stays
    rw [enough, if_neg Bool.false_ne_true] at same
    split at same
    · split at same
      · cases same
      · cases same
    · split at same
      · have listed := hooks_of_set_eq same
        rw [found] at listed
        have lists := Value.list.inj (Option.some.inj listed)
        rw [← lists] at dropped
        exact dropped member
      · have listed := hooks_of_set_eq same
        rw [Mapping.get_set] at listed
        have lists := Value.list.inj (Option.some.inj listed)
        rw [← lists] at dropped
        exact dropped stays

/-- What is kept of a block is what belongs to the operator exactly when the block is settled. -/
theorem keptBlock_eq_ownedBlock_iff (fine : takesBlock block = true) (once : KeysOnce block) :
    keptBlock block = ownedBlock block ↔ Settled block := by
  cases block with
  | dict fields =>
      have distinct : (fields.map Prod.fst).Nodup := by
        cases once with
        | dict once _ => exact once
        | atom no_dict _ => exact absurd rfl (no_dict fields)
      have settled : Settled (.dict fields) ↔ ∃ hooks,
          Mapping.get fields "hooks" = some (.list hooks) ∧ hooks ≠ [] ∧
            ∀ hook ∈ hooks, contains marker hook = .ok true → isTagged hook = true := by
        constructor
        · rintro ⟨_, hooks, same, rest⟩
          cases same
          exact ⟨hooks, rest⟩
        · rintro ⟨hooks, rest⟩
          exact ⟨fields, hooks, rfl, rest⟩
      have unlisted : (∀ hooks, Mapping.get fields "hooks" ≠ some (.list hooks)) →
          (keptBlock (.dict fields) = some (.dict fields) ↔ Settled (.dict fields)) := by
        intro other
        rw [settled]
        apply iff_of_false
        · intro same
          rw [keptBlock] at same
          split at same
          · cases same
          · have found := congrArg (fun value => value.map fun value => match value with
              | .dict fields => Mapping.get fields "hooks"
              | _ => none) same
            simp only [Option.map_some, Mapping.get_set, Option.some.injEq] at found
            exact other _ found.symm
        · rintro ⟨hooks, found, _⟩
          exact other hooks found
      cases found : Mapping.get fields "hooks" with
      | none =>
          rw [ownedBlock, found]
          exact unlisted (by rw [found]; exact fun _ impossible => by cases impossible)
      | some value =>
          cases value with
          | list hooks =>
              have marks : ∀ hook, contains marker hook = .ok true ↔ holdsMarker hook = true := by
                intro hook
                rw [holdsMarker]
                cases contains marker hook with
                | ok answer => simp
                | error _ => simp
              have settled_list : Settled (.dict fields) ↔ hooks ≠ [] ∧
                  ∀ hook ∈ hooks, holdsMarker hook = true → isTagged hook = true := by
                rw [settled, found]
                simp only [marks]
                constructor
                · rintro ⟨_, same, rest⟩
                  cases same
                  exact rest
                · exact fun rest => ⟨hooks, rfl, rest⟩
              rw [settled_list]
              exact kept_eq_owned_iff distinct found
          | _ =>
              rw [ownedBlock, found]
              exact unlisted (by rw [found]; exact fun _ impossible => by cases impossible)
  | _ => cases fine

theorem ownedBlock_eq_none (gone : ownedBlock block = none) : keptBlock block = none := by
  cases block with
  | dict fields =>
      rw [ownedBlock] at gone
      split at gone
      · rename_i hooks found
        dsimp only at gone
        split at gone
        · cases gone
        · split at gone
          · rename_i untagged
            have nothing : (hooks.filter fun hook => !holdsMarker hook).isEmpty = true := by
              rw [List.isEmpty_iff, List.filter_eq_nil_iff] at untagged ⊢
              intro hook member unmarked
              have tagged := untagged hook member
              rw [Bool.not_eq_true', Bool.not_eq_false] at tagged
              rw [holdsMarker_of_isTagged tagged] at unmarked
              cases unmarked
            rw [keptBlock, found, Option.getD_some, members, Option.getD_some]
            exact if_pos nothing
          · cases gone
      · cases gone
  | _ => rfl

/-- What is kept of an event is what belongs to the operator exactly when its blocks are settled,
and there are some. -/
theorem keptEvent_eq_ownedEvent_iff (fine : takesEvent event = true) (once : KeysOnce event.2) :
    keptEvent event = ownedEvent event ↔
      ∃ blocks, event.2 = .list blocks ∧ blocks ≠ [] ∧ ∀ block ∈ blocks, Settled block := by
  obtain ⟨name, value⟩ := event
  cases value with
  | list blocks =>
      have inside : ∀ block ∈ blocks, KeysOnce block := by
        cases once with
        | list inside => exact inside
        | atom _ no_list => exact absurd rfl (no_list blocks)
      have all : blocks.all takesBlock = true := fine
      have settled : (∃ others, Value.list blocks = .list others ∧ others ≠ [] ∧
          ∀ block ∈ others, Settled block) ↔ blocks ≠ [] ∧ ∀ block ∈ blocks, Settled block := by
        constructor
        · rintro ⟨_, same, rest⟩
          cases same
          exact rest
        · exact fun rest => ⟨blocks, rfl, rest⟩
      have lists : blocks.filterMap keptBlock = blocks.filterMap ownedBlock ↔
          ∀ block ∈ blocks, Settled block := by
        rw [filterMap_eq_iff fun block _ => ownedBlock_eq_none]
        constructor
        · intro same block member
          exact (keptBlock_eq_ownedBlock_iff (List.all_eq_true.mp all block member)
            (inside block member)).mp (same block member)
        · intro each block member
          exact (keptBlock_eq_ownedBlock_iff (List.all_eq_true.mp all block member)
            (inside block member)).mpr (each block member)
      have kept : keptEvent (name, .list blocks) =
          if (blocks.filterMap keptBlock).isEmpty then none
          else some (name, .list (blocks.filterMap keptBlock)) := rfl
      have owned : ownedEvent (name, .list blocks) =
          if (blocks.filterMap ownedBlock).isEmpty && !blocks.isEmpty then none
          else some (name, .list (blocks.filterMap ownedBlock)) := rfl
      change _ ↔ ∃ others, Value.list blocks = .list others ∧ _
      rw [settled, ← lists, kept, owned]
      cases blocks with
      | nil =>
          apply iff_of_false
          · intro impossible
            cases impossible
          · exact fun both => both.1 rfl
      | cons block rest =>
          rw [and_iff_right (List.cons_ne_nil _ _), List.isEmpty_cons, Bool.not_false,
            Bool.and_true]
          constructor
          · intro same
            split at same
            · rename_i left
              split at same
              · rename_i right
                rw [List.isEmpty_iff.mp left, List.isEmpty_iff.mp right]
              · cases same
            · split at same
              · cases same
              · exact Value.list.inj (Prod.mk.inj (Option.some.inj same)).2
          · intro same
            rw [same]
  | _ =>
      apply iff_of_false
      · intro same
        rw [keptEvent, ownedEvent] at same
        split at same
        · cases same
        · cases same
      · rintro ⟨_, impossible, _⟩
        cases impossible

theorem ownedEvent_eq_none (gone : ownedEvent event = none) : keptEvent event = none := by
  rw [ownedEvent] at gone
  split at gone
  · rename_i blocks found
    dsimp only at gone
    split at gone
    · rename_i nothing
      have none_owned := (Bool.and_eq_true_iff.mp nothing).1
      have none_kept : (blocks.filterMap keptBlock).isEmpty = true := by
        rw [List.isEmpty_iff, List.filterMap_eq_nil_iff] at none_owned ⊢
        exact fun block member => ownedBlock_eq_none (none_owned block member)
      rw [keptEvent, found, members, Option.getD_some]
      exact if_pos none_kept
    · cases gone
  · cases gone

/-! ## The document -/

/-- The hooks of some data, none where there is no such key. -/
def hooksOf (fields : Mapping) : Value :=
  (Mapping.get fields "hooks").getD (.dict [])

theorem takes_iff : takes data = true ↔
    ∃ fields hooks, data = .dict fields ∧ hooksOf fields = .dict hooks ∧
      hooks.all takesEvent = true := by
  cases data with
  | dict fields =>
      change (match hooksOf fields with
        | .dict hooks => hooks.all takesEvent
        | _ => false) = true ↔ _
      cases found : hooksOf fields with
      | dict hooks =>
          constructor
          · exact fun all => ⟨fields, hooks, rfl, found, all⟩
          · rintro ⟨_, _, same, other, all⟩
            cases same
            rw [found] at other
            cases other
            exact all
      | _ =>
          apply iff_of_false Bool.false_ne_true
          rintro ⟨_, _, same, other, _⟩
          cases same
          rw [found] at other
          cases other
  | _ =>
      apply iff_of_false Bool.false_ne_true
      rintro ⟨_, _, same, _⟩
      cases same

namespace HookFileProvider

variable {provider : HookFileProvider}

theorem install_eq_ok_iff {written : Value} : provider.install data = .ok written ↔
    ∃ fields hooks, data = .dict fields ∧ hooksOf fields = .dict hooks ∧
      hooks.all takesEvent = true ∧ written = .dict (Mapping.set fields "hooks"
        (.dict (provider.addEvents (hooks.filterMap keptEvent)))) := by
  cases data with
  | dict fields =>
      rw [install, Except.bind_eq_ok_iff]
      change (∃ kept, stripManaged (hooksOf fields) = _ ∧ _) ↔ _
      constructor
      · rintro ⟨kept, stripped, last⟩
        cases found : hooksOf fields with
        | dict hooks =>
            rw [found] at stripped
            obtain ⟨all, rfl⟩ := stripManaged_eq_ok_iff.mp stripped
            exact ⟨fields, hooks, rfl, found, all, (Except.ok.inj last).symm⟩
        | _ =>
            rw [found] at stripped
            cases stripped
      · rintro ⟨_, hooks, same, found, all, rfl⟩
        cases same
        rw [found]
        exact ⟨_, stripManaged_eq_ok_iff.mpr ⟨all, rfl⟩, rfl⟩
  | _ =>
      constructor
      · intro impossible
        cases impossible
      · rintro ⟨_, _, impossible, _⟩
        cases impossible

/-- Where stripping fails, nothing is written. -/
theorem afterInstall_of_refused {file : Option Value} (refused : takes (loadJson file) = false) :
    provider.afterInstall file = file := by
  unfold afterInstall
  split
  · rename_i written installed
    obtain ⟨fields, hooks, same, found, all, _⟩ := install_eq_ok_iff.mp installed
    have taken := takes_iff.mpr ⟨fields, hooks, same, found, all⟩
    rw [refused] at taken
    cases taken
  · rfl

end HookFileProvider

theorem exists_get_of_any {fields : Mapping} {key : String}
    (present : (fields.any fun entry => entry.1.isStr (PyStr.lit key)) = true) :
    ∃ value, Mapping.get fields key = some value := by
  obtain ⟨entry, member, here⟩ := List.any_eq_true.mp present
  cases found : fields.find? fun entry => entry.1.isStr (PyStr.lit key) with
  | none => exact absurd here (List.find?_eq_none.mp found entry member)
  | some entry => exact ⟨entry.2, by rw [Mapping.get, found]; rfl⟩

theorem uninstall_eq_ok_iff {written : Value} : uninstall data = .ok (some written) ↔
    ∃ fields hooks, data = .dict fields ∧ Mapping.get fields "hooks" = some (.dict hooks) ∧
      hooks.all takesEvent = true ∧ written = .dict
        (if (hooks.filterMap keptEvent).isEmpty then Mapping.without fields "hooks"
          else Mapping.set fields "hooks" (.dict (hooks.filterMap keptEvent))) := by
  cases data with
  | dict fields =>
      have whole : uninstall (.dict fields) =
          if fields.any fun entry => entry.1.isStr (PyStr.lit "hooks") then
            (stripManaged ((Mapping.get fields "hooks").getD .null)).map fun hooks =>
              some (.dict (if hooks.isEmpty then Mapping.without fields "hooks"
                else Mapping.set fields "hooks" (.dict hooks)))
          else .ok none := by
        cases present : fields.any fun entry => entry.1.isStr (PyStr.lit "hooks") with
        | true =>
            have found : contains "hooks" (.dict fields) = .ok true := congrArg Except.ok present
            rw [uninstall, found, if_pos rfl]
            cases stripManaged ((Mapping.get fields "hooks").getD .null) with
            | ok hooks => rfl
            | error raised => rfl
        | false =>
            have found : contains "hooks" (.dict fields) = .ok false := congrArg Except.ok present
            rw [uninstall, found]
            rfl
      rw [whole]
      constructor
      · intro removed
        split at removed
        · rename_i present
          obtain ⟨value, here⟩ := exists_get_of_any present
          rw [here, Option.getD_some] at removed
          obtain ⟨kept, stripped, last⟩ := Except.map_eq_ok_iff.mp removed
          cases value with
          | dict hooks =>
              obtain ⟨all, rfl⟩ := stripManaged_eq_ok_iff.mp stripped
              exact ⟨fields, hooks, rfl, here, all, (Option.some.inj last).symm⟩
          | _ => cases stripped
        · cases removed
      · rintro ⟨_, hooks, same, here, all, rfl⟩
        cases same
        have present : (fields.any fun entry => entry.1.isStr (PyStr.lit "hooks")) = true := by
          rw [Mapping.get] at here
          obtain ⟨entry, found, _⟩ := Option.map_eq_some_iff.mp here
          have held : entry.1.isStr (PyStr.lit "hooks") = true :=
            @List.find?_some _ (fun entry : Value × Value => entry.1.isStr (PyStr.lit "hooks"))
              entry fields found
          exact List.any_eq_true.mpr ⟨entry, List.mem_of_find?_eq_some found, held⟩
        rw [if_pos present, here, Option.getD_some, stripManaged_eq_ok_iff.mpr ⟨all, rfl⟩]
        rfl
  | list items =>
      apply iff_of_false
      · intro removed
        obtain ⟨found, _, removed⟩ := Except.bind_eq_ok_iff.mp removed
        cases found with
        | true => cases removed
        | false => cases removed
      · rintro ⟨_, _, impossible, _⟩
        cases impossible
  | str s =>
      apply iff_of_false
      · intro removed
        obtain ⟨found, _, removed⟩ := Except.bind_eq_ok_iff.mp removed
        cases found with
        | true => cases removed
        | false => cases removed
      · rintro ⟨_, _, impossible, _⟩
        cases impossible
  | _ =>
      apply iff_of_false
      · intro impossible
        cases impossible
      · rintro ⟨_, _, impossible, _⟩
        cases impossible

theorem afterUninstall_of_refused {file : Option Value} (refused : takes (loadJson file) = false) :
    afterUninstall file = file := by
  unfold afterUninstall
  split
  · rename_i written removed
    obtain ⟨fields, hooks, same, here, all, _⟩ := uninstall_eq_ok_iff.mp removed
    have found : hooksOf fields = .dict hooks := by
      rw [hooksOf, here]
      rfl
    rw [takes_iff.mpr ⟨fields, hooks, same, found, all⟩] at refused
    cases refused
  · rfl

/-- The events of the operator in data with this key. -/
theorem ownedEvents_eq (fields hooks : Mapping) (found : hooksOf fields = .dict hooks) :
    ownedEvents (.dict fields) = hooks.filterMap ownedEvent := by
  rw [hooksOf] at found
  cases here : Mapping.get fields "hooks" with
  | none =>
      rw [here] at found
      cases found
      rw [ownedEvents, here]
      rfl
  | some value =>
      rw [here, Option.getD_some] at found
      rw [ownedEvents, here, found]

theorem keysOnce_of_hooksOf {fields hooks : Mapping} (once : KeysOnce (.dict fields))
    (found : hooksOf fields = .dict hooks) : ∀ event ∈ hooks, KeysOnce event.2 := by
  have inside : ∀ {entries : Mapping}, KeysOnce (.dict entries) →
      ∀ entry ∈ entries, KeysOnce entry.2 := by
    intro entries once
    cases once with
    | dict _ inside => exact inside
    | atom no_dict _ => exact absurd rfl (no_dict entries)
  cases here : Mapping.get fields "hooks" with
  | none =>
      rw [hooksOf, here] at found
      cases found
      exact List.forall_mem_nil _
  | some value =>
      rw [hooksOf, here, Option.getD_some] at found
      obtain ⟨entry, among, same⟩ := Option.map_eq_some_iff.mp here
      have held := inside once entry (List.mem_of_find?_eq_some among)
      rw [same, found] at held
      exact inside held

/-- A document is handled surgically exactly when the installer refuses it, or each of its events
has blocks, each of these entries, and every entry that is taken for a marked one is marked. -/
theorem HookFileProvider.surgical_iff (provider : HookFileProvider) (document : SettingsDocument) :
    provider.Surgical document ↔
      (takes (loadJson document.file) = true → SettledEvents (loadJson document.file)) := by
  obtain ⟨file, once⟩ := document
  rw [HookFileProvider.Surgical]
  dsimp only
  cases taken : takes (loadJson file) with
  | false =>
      have same := @HookFileProvider.afterInstall_of_refused provider file taken
      apply iff_of_true
      · rw [same, same, afterUninstall_of_refused taken]
        exact ⟨rfl, rfl⟩
      · intro impossible
        cases impossible
  | true =>
      obtain ⟨fields, hooks, data, found, all⟩ := takes_iff.mp taken
      let kept := hooks.filterMap keptEvent
      have stays := mem_filterMap_kept all fun event kept fine found =>
        @keptEvent_of_keptEvent event kept fine found
      have again : kept.filterMap keptEvent = kept :=
        filterMap_eq_self fun event member => (stays event member).1
      have owned : kept.filterMap ownedEvent = kept :=
        filterMap_eq_self fun event member => (stays event member).2.2
      have fine : kept.all takesEvent = true :=
        List.all_eq_true.mpr fun event member => (stays event member).2.1
      obtain ⟨stripped, added⟩ := filterMap_addEvents provider fine
      rw [again] at stripped
      let once_installed := Mapping.set fields "hooks" (.dict (provider.addEvents kept))
      have first : provider.afterInstall file = some (.dict once_installed) := by
        rw [HookFileProvider.afterInstall, HookFileProvider.install_eq_ok_iff.mpr
          ⟨fields, hooks, data, found, all, rfl⟩]
      have listed : Mapping.get once_installed "hooks" =
          some (.dict (provider.addEvents kept)) := Mapping.get_set ..
      have shown : hooksOf once_installed = .dict (provider.addEvents kept) := by
        rw [hooksOf, listed]
        rfl
      have second : provider.afterInstall (some (.dict once_installed)) =
          some (.dict once_installed) := by
        have written : provider.install (.dict once_installed) = .ok (.dict once_installed) := by
          rw [HookFileProvider.install_eq_ok_iff]
          refine ⟨once_installed, _, rfl, shown, added, ?_⟩
          rw [stripped, Mapping.set_set]
        rw [HookFileProvider.afterInstall]
        change (match provider.install (.dict once_installed) with
          | .ok data => some data
          | .error _ => some (.dict once_installed)) = _
        rw [written]
      have removed := uninstall_eq_ok_iff.mpr ⟨once_installed, _, rfl, listed, added, rfl⟩
      rw [stripped] at removed
      have left : ownedEvents (loadJson (afterUninstall (some (.dict once_installed)))) = kept := by
        rw [afterUninstall]
        change ownedEvents (loadJson (match uninstall (.dict once_installed) with
          | .ok (some data) => some data
          | _ => some (.dict once_installed))) = kept
        rw [removed]
        change ownedEvents (.dict _) = kept
        split
        · rename_i nothing
          rw [ownedEvents, Mapping.get_without]
          exact (List.isEmpty_iff.mp nothing).symm
        · rw [ownedEvents, Mapping.get_set]
          exact owned
      have events : ∀ event ∈ hooks, KeysOnce event.2 := by
        rw [data] at once
        exact keysOnce_of_hooksOf once found
      have whole : ownedEvents (loadJson file) = hooks.filterMap ownedEvent := by
        rw [data]
        exact ownedEvents_eq fields hooks found
      have settled : SettledEvents (loadJson file) ↔ ∀ event ∈ hooks, ∃ blocks,
          event.2 = .list blocks ∧ blocks ≠ [] ∧ ∀ block ∈ blocks, Settled block := by
        rw [data]
        constructor
        · intro every
          cases here : Mapping.get fields "hooks" with
          | none =>
              rw [hooksOf, here] at found
              cases found
              exact List.forall_mem_nil _
          | some value =>
              rw [hooksOf, here, Option.getD_some] at found
              rw [found] at here
              exact every fields hooks rfl here
        · intro every others more same here
          cases same
          rw [hooksOf, here] at found
          cases found
          exact every
      rw [first, second, left, whole, settled, and_iff_right rfl, forall_prop_of_true rfl]
      change hooks.filterMap keptEvent = _ ↔ _
      rw [filterMap_eq_iff fun event _ => ownedEvent_eq_none]
      constructor
      · intro same event member
        exact (keptEvent_eq_ownedEvent_iff (List.all_eq_true.mp all event member)
          (events event member)).mp (same event member)
      · intro each event member
        exact (keptEvent_eq_ownedEvent_iff (List.all_eq_true.mp all event member)
          (events event member)).mpr (each event member)

/-! ## The providers of the installer -/

/-- `_claude_provider`, for the path of the hook. -/
def claudeProvider (hookBin : PyStr) : HookFileProvider where
  hookBin := hookBin
  name := "claude-code"
  events :=
    [⟨"SessionStart", "session-start", none⟩, ⟨"UserPromptSubmit", "user-prompt", none⟩,
      ⟨"PreToolUse", "pre-tool", some "^(Edit|Write|MultiEdit|NotebookEdit|Bash)$"⟩,
      ⟨"Stop", "stop", none⟩]
  dialect := "claude"
  enforceMode := "hard"

/-- `_codex_provider`. -/
def codexProvider (hookBin : PyStr) : HookFileProvider where
  hookBin := hookBin
  name := "codex"
  events :=
    [⟨"SessionStart", "session-start", none⟩, ⟨"UserPromptSubmit", "user-prompt", none⟩,
      ⟨"PreToolUse", "pre-tool", some "^(Edit|Write|MultiEdit|Bash)$"⟩, ⟨"Stop", "stop", none⟩]
  dialect := "claude"
  enforceMode := "hard"

/-- `_gemini_provider`. -/
def geminiProvider (hookBin : PyStr) : HookFileProvider where
  hookBin := hookBin
  name := "gemini"
  events :=
    [⟨"SessionStart", "session-start", none⟩, ⟨"BeforeAgent", "user-prompt", none⟩,
      ⟨"BeforeTool", "pre-tool", some "^(write_file|replace|run_shell_command)$"⟩,
      ⟨"Stop", "stop", none⟩]
  dialect := "gemini"
  enforceMode := "hard"

theorem keysOnce_singleton {key value : Value} (inside : KeysOnce value) :
    KeysOnce (.dict [(key, value)]) := by
  apply KeysOnce.dict
  · exact List.nodup_singleton key
  · intro entry member
    rw [List.mem_singleton.mp member]
    exact inside

/-- A document with an event that the operator left without blocks. -/
def emptyEvent : SettingsDocument where
  file := some (.dict [(.str (PyStr.lit "hooks"), .dict [(.str (PyStr.lit "Stop"), .list [])])])
  once := keysOnce_singleton (keysOnce_singleton (.list (List.forall_mem_nil _)))

end DataOlympus.Installer
