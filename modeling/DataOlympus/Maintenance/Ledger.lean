import DataOlympus.Document.Render
import DataOlympus.Maintenance.State
import DataOlympus.Transition.Run

/-!
# The maintenance ledger

The state of the corpus is committed as the front matter of a ledger, and only if it differs
from what the process committed last, from the ledger in the index and from the ledger at the
head of the system worktree.  A restart forgets the first of these.
-/

namespace DataOlympus

open Lines Transition

/-- The front matter of the ledger. -/
def ledgerFrontmatter (state : MaintenanceState) (computedAt : PyStr) : Mapping :=
  Mapping.ofFields
    [("id", .str (PyStr.lit "maintenance-ledger")),
      ("type", .str (PyStr.lit "reference")),
      ("status", .str (PyStr.lit "active")),
      ("tier", .str (PyStr.lit "meta")),
      ("title", .str (PyStr.lit "Data Olympus Maintenance Ledger")),
      ("description", .str (PyStr.lit ("Auto-generated corpus maintenance ledger, " ++
        "regenerated on every index build when the computed state changes. " ++
        "Do not edit by hand."))),
      ("tags", .list [.str (PyStr.lit "maintenance"), .str (PyStr.lit "auto-generated")]),
      ("maintenance",
        .dict (Mapping.ofFields (("computed_at", .str computedAt) :: state.fields)))]

/-- The lines of the body. -/
def ledgerLines (state : MaintenanceState) : List String :=
  ["# Data Olympus Maintenance Ledger", "",
    "Auto-generated by data-olympus at every index build; do not edit by hand " ++
      "(edits are overwritten the next time the computed state changes). " ++
      "See docs/operations.md.", ""] ++
    (if state.statusPresentInAllKbEntries then
      ["- `status` is present on every indexed document."]
    else
      ["- " ++ toString state.missingStatusCount ++
        " document(s) are missing a `status` field (showing up to " ++
          toString state.missingStatusPaths.length ++ ")."]) ++
    (if state.recentlyExpiredCount ≠ 0 then
      ["- " ++ toString state.recentlyExpiredCount ++ " document(s) recently expired."]
    else []) ++
    (if state.expiringSoonCount ≠ 0 then
      ["- " ++ toString state.expiringSoonCount ++ " document(s) are expiring soon."]
    else []) ++
    (if state.isDirty then
      ["", "Run an audit session to review and remediate the open item(s) above."] else [])

/-- The body of the ledger. -/
def ledgerBody (state : MaintenanceState) : Text :=
  '\n' :: (joinLines ((ledgerLines state).map String.toList) ++ ['\n'])

/-- How the commit of the ledger ends. -/
inductive LedgerCommitEnd where
  /-- Nothing is committed. -/
  | refused
  /-- It is committed, and then an exception is raised. -/
  | unreported
  | committed

/-- What a tick finds. -/
structure Tick where
  /-- `idx.maintenance_state`. -/
  state : Option MaintenanceState
  /-- The text of the document with the ledger's id in the index. -/
  indexed : Option Text
  /-- `is_writable_path(ledger_path)`. -/
  writable : Bool
  /-- The ledger at the head of the system worktree can be read. -/
  readable : Bool
  computedAt : PyStr
  commitEnd : LedgerCommitEnd

/-- The process and the system worktree, in which nobody else writes the ledger. -/
structure LedgerKeeper where
  /-- `idx.maintenance_last_committed_state`. -/
  memo : Option MaintenanceState
  /-- The ledger at the head of the system worktree. -/
  head : Option Text
  /-- How many ledgers were committed. -/
  commits : Nat

inductive LedgerEvent where
  | tick (tick : Tick)
  /-- The service starts again. -/
  | restart

section Ledger

variable (safeDump : Mapping → Text) (runtime : Runtime) (parser : IntParser)

/-- `render_ledger_markdown(…)`. -/
def renderLedgerMarkdown (state : MaintenanceState) (computedAt : PyStr) : Text :=
  enclose (safeDump (ledgerFrontmatter state computedAt)) (ledgerBody state)

/-- `parse_ledger_state(…)`. -/
def parseLedgerState (contentMarkdown : Option Text) :
    Except Raised (Option MaintenanceState) :=
  match contentMarkdown with
  | none => .ok none
  | some content =>
      if content.isEmpty then .ok none
      else
        match runtime.parseFrontmatter content with
        | .error (.valueError _) => .ok none
        | .error raised => .error raised
        | .ok (entries, _) =>
            match entries.get "maintenance" with
            | some (.dict maintenance) =>
                .ok (MaintenanceState.fromDict runtime parser maintenance)
            | _ => .ok none

/-- `_last_committed_in_worktree(…)`. -/
def lastCommittedInWorktree (keeper : LedgerKeeper) (tick : Tick) : Option Text :=
  if tick.readable then keeper.head.map readBack else none

/-- The commit of a new ledger. -/
def commitLedger (keeper : LedgerKeeper) (tick : Tick) (state : MaintenanceState) :
    LedgerKeeper :=
  let committed : LedgerKeeper := {
    keeper with
    head := some (renderLedgerMarkdown safeDump state tick.computedAt)
    commits := keeper.commits + 1 }
  match tick.commitEnd with
  | .refused => keeper
  | .unreported => committed
  | .committed => { committed with memo := some state }

/-- `maybe_update_ledger(…)`. -/
def maybeUpdateLedger (keeper : LedgerKeeper) (tick : Tick) : Except Raised LedgerKeeper :=
  match tick.state with
  | none => .ok keeper
  | some state =>
      if keeper.memo = some state then .ok keeper
      else do
        let oldState ← parseLedgerState runtime parser tick.indexed
        if oldState = some state then return { keeper with memo := some state }
        else if !tick.writable then return keeper
        else do
          let wtState ← parseLedgerState runtime parser (lastCommittedInWorktree keeper tick)
          if wtState = some state then return { keeper with memo := some state }
          else return commitLedger safeDump keeper tick state

/-- A tick whose check raises is logged by the loop that makes it. -/
inductive KeeperStep : LedgerKeeper → LedgerEvent → LedgerKeeper → Prop
  | updated (keeper after : LedgerKeeper) (tick : Tick)
      (done : maybeUpdateLedger safeDump runtime parser keeper tick = .ok after) :
      KeeperStep keeper (.tick tick) after
  | raised (keeper : LedgerKeeper) (tick : Tick) (raised : Raised)
      (failed : maybeUpdateLedger safeDump runtime parser keeper tick = .error raised) :
      KeeperStep keeper (.tick tick) keeper
  | restart (keeper : LedgerKeeper) :
      KeeperStep keeper .restart { keeper with memo := none }

variable {safeDump runtime parser}

/-! ## Reading a ledger back -/

/-- Front matter that is parsed as it was written is read back as the state. -/
theorem parseLedgerState_enclose {state : MaintenanceState} {computedAt : PyStr}
    (emits : Emits safeDump runtime (ledgerFrontmatter state computedAt)) (body : Text) :
    parseLedgerState runtime parser
        (some (enclose (safeDump (ledgerFrontmatter state computedAt)) body)) =
      .ok (some state) := by
  have parsed := Runtime.parseFrontmatter_enclose emits.reads_back emits.undelimited body
  have found : (ledgerFrontmatter state computedAt).get "maintenance" =
      some (.dict (Mapping.ofFields (("computed_at", .str computedAt) :: state.fields))) :=
    Mapping.get_ofFields _ _
  have text : (enclose (safeDump (ledgerFrontmatter state computedAt)) body).isEmpty = false :=
    rfl
  rw [parseLedgerState]
  simp only [text, parsed, found, MaintenanceState.fromDict_fields state ("computed_at", _) rfl]
  rfl

/-- The rendered ledger is read back as the state. -/
theorem parseLedgerState_render {state : MaintenanceState} {computedAt : PyStr}
    (emits : Emits safeDump runtime (ledgerFrontmatter state computedAt)) :
    parseLedgerState runtime parser (some (renderLedgerMarkdown safeDump state computedAt)) =
      .ok (some state) :=
  parseLedgerState_enclose emits _

/-- So is what git shows of it. -/
theorem parseLedgerState_readBack {state : MaintenanceState} {computedAt : PyStr}
    (emits : Emits safeDump runtime (ledgerFrontmatter state computedAt))
    (noReturn : '\r' ∉ safeDump (ledgerFrontmatter state computedAt)) :
    parseLedgerState runtime parser
        (some (readBack (renderLedgerMarkdown safeDump state computedAt))) =
      .ok (some state) := by
  rw [renderLedgerMarkdown, readBack_enclose noReturn]
  exact parseLedgerState_enclose emits _

/-- The block of the rendered ledger is found as it was emitted exactly if none of the
emitted lines is a delimiter. -/
theorem cut_renderLedgerMarkdown_iff {state : MaintenanceState} {computedAt : PyStr}
    {raw : Text} (dumped : safeDump (ledgerFrontmatter state computedAt) = raw ++ ['\n']) :
    Block.cut (renderLedgerMarkdown safeDump state computedAt) =
        .delimited raw (ledgerBody state) ↔
      Undelimited safeDump (ledgerFrontmatter state computedAt) := by
  rw [renderLedgerMarkdown, dumped, Block.cut_enclose_iff, Undelimited, dumped, splitLines,
    splitLines, List.splitOn_append_cons_self, List.forall_mem_append]
  exact (and_iff_left (by decide)).symm

/-! ## Ticks and restarts -/

/-- The ledger at the head of the worktree records the state. -/
def LedgerKeeper.Records (runtime : Runtime) (parser : IntParser) (state : MaintenanceState)
    (keeper : LedgerKeeper) : Prop :=
  parseLedgerState runtime parser (keeper.head.map readBack) = .ok (some state)

/-- What a tick does: it leaves the head alone, or it commits a state that the head was not
found to record. -/
theorem maybeUpdateLedger_cases {keeper after : LedgerKeeper} {tick : Tick}
    (done : maybeUpdateLedger safeDump runtime parser keeper tick = .ok after) :
    (after.head = keeper.head ∧ after.commits = keeper.commits) ∨
      ∃ state, tick.state = some state ∧
        parseLedgerState runtime parser (lastCommittedInWorktree keeper tick) ≠
          .ok (some state) ∧
        after.head = some (renderLedgerMarkdown safeDump state tick.computedAt) ∧
        after.commits = keeper.commits + 1 := by
  unfold maybeUpdateLedger at done
  split at done
  · cases done
    exact .inl ⟨rfl, rfl⟩
  · rename_i state computed
    split at done
    · cases done
      exact .inl ⟨rfl, rfl⟩
    · obtain ⟨oldState, -, unindexed⟩ := Except.bind_eq_ok_iff.mp done
      split at unindexed
      · cases unindexed
        exact .inl ⟨rfl, rfl⟩
      · split at unindexed
        · cases unindexed
          exact .inl ⟨rfl, rfl⟩
        · obtain ⟨wtState, found, unheld⟩ := Except.bind_eq_ok_iff.mp unindexed
          split at unheld
          · cases unheld
            exact .inl ⟨rfl, rfl⟩
          · rename_i differs
            cases unheld
            unfold commitLedger
            cases tick.commitEnd with
            | refused => exact .inl ⟨rfl, rfl⟩
            | _ =>
                refine .inr ⟨state, computed, ?_, rfl, rfl⟩
                rw [found]
                intro same
                exact differs (Except.ok.inj same)

/-- The computed state is this one, once there is one. -/
def LedgerEvent.Steady (state : MaintenanceState) : LedgerEvent → Prop
  | .tick found => ∀ computed, found.state = some computed → computed = state
  | .restart => True

/-- What the emitter writes for the ledger of a tick is read back, and has no carriage
return. -/
def LedgerEvent.Printed (safeDump : Mapping → Text) (runtime : Runtime)
    (state : MaintenanceState) : LedgerEvent → Prop
  | .tick found => ReadsBack safeDump runtime (ledgerFrontmatter state found.computedAt) ∧
      '\r' ∉ safeDump (ledgerFrontmatter state found.computedAt)
  | .restart => True

/-- No line that the emitter writes for the ledger of a tick is a delimiter, and the ledger
at the head can be read. -/
def LedgerEvent.Dependable (safeDump : Mapping → Text) (state : MaintenanceState) :
    LedgerEvent → Prop
  | .tick found => Undelimited safeDump (ledgerFrontmatter state found.computedAt) ∧
      found.readable = true
  | .restart => True

/-- No ledger was committed since `commits`, or one that is still recorded. -/
def LedgerKeeper.Once (runtime : Runtime) (parser : IntParser) (state : MaintenanceState)
    (commits : Nat) (keeper : LedgerKeeper) : Prop :=
  keeper.commits = commits ∨
    keeper.commits = commits + 1 ∧ keeper.Records runtime parser state

/-- An event commits no second ledger of the same state. -/
theorem KeeperStep.once {keeper after : LedgerKeeper} {event : LedgerEvent}
    {state : MaintenanceState} {commits : Nat}
    (step : KeeperStep safeDump runtime parser keeper event after)
    (steady : event.Steady state) (printed : event.Printed safeDump runtime state)
    (dependable : event.Dependable safeDump state)
    (once : keeper.Once runtime parser state commits) :
    after.Once runtime parser state commits := by
  cases step with
  | raised => exact once
  | restart => exact once
  | updated _ tick done =>
      rcases maybeUpdateLedger_cases done with ⟨head, same⟩ | ⟨computed, found, differs, head, more⟩
      · unfold LedgerKeeper.Once LedgerKeeper.Records at once ⊢
        rw [head, same]
        exact once
      · cases steady computed found
        rcases once with none | ⟨-, records⟩
        · refine .inr ⟨by rw [more, none], ?_⟩
          rw [LedgerKeeper.Records, head]
          exact parseLedgerState_readBack ⟨printed.1, dependable.1⟩ printed.2
        · rw [lastCommittedInWorktree, if_pos dependable.2] at differs
          exact absurd records differs

/-- The ledger rendered from a state is read back as that state if no emitted line is a
delimiter, which is exactly when its block is found as it was emitted.  In every run of ticks
and restarts with one computed state, at most one ledger is committed if no tick emits such a
line and each can read the head. -/
theorem ledger_is_committed_once (safeDump : Mapping → Text) (runtime : Runtime)
    (parser : IntParser) (state : MaintenanceState) :
    (∀ computedAt raw, safeDump (ledgerFrontmatter state computedAt) = raw ++ ['\n'] →
      runtime.safeLoad raw = .ok (.dict (ledgerFrontmatter state computedAt)) →
      (Block.cut (renderLedgerMarkdown safeDump state computedAt) =
          .delimited raw (ledgerBody state) ↔
        Undelimited safeDump (ledgerFrontmatter state computedAt)) ∧
      (Undelimited safeDump (ledgerFrontmatter state computedAt) →
        parseLedgerState runtime parser
            (some (renderLedgerMarkdown safeDump state computedAt)) = .ok (some state))) ∧
    ∀ source events target, Run (KeeperStep safeDump runtime parser) source events target →
      (∀ event ∈ events, event.Steady state) →
      (∀ event ∈ events, event.Printed safeDump runtime state) →
      (∀ event ∈ events, event.Dependable safeDump state) →
        target.commits ≤ source.commits + 1 := by
  constructor
  · intro computedAt raw dumped loaded
    refine ⟨cut_renderLedgerMarkdown_iff dumped, ?_⟩
    intro undelimited
    exact parseLedgerState_render ⟨⟨raw, dumped, loaded⟩, undelimited⟩
  · intro source events target run steady printed dependable
    have once : target.Once runtime parser state source.commits := by
      apply run.invariant_along _ _ (.inl rfl)
      · exact fun event => event.Steady state ∧ event.Printed safeDump runtime state ∧
          event.Dependable safeDump state
      · rintro keeper event after ⟨here, emitted, relied⟩ step
        exact step.once here emitted relied
      · intro event member
        exact ⟨steady event member, printed event member, dependable event member⟩
    rcases once with none | ⟨one, -⟩
    · omega
    · omega

end Ledger

/-! ## A clean corpus and a long id -/

section Corpora

/-- A corpus with nothing to do. -/
def cleanState : MaintenanceState where
  statusPresentInAllKbEntries := true
  missingStatusPaths := []
  missingStatusCount := 0
  recentlyExpired := []
  recentlyExpiredCount := 0
  expiringSoon := []
  expiringSoonCount := 0

/-- A word that fills a line. -/
def longWord : Text :=
  List.replicate 80 'a'

/-- A corpus in which a document with a long id expires soon. -/
def expiringState : MaintenanceState :=
  { cleanState with
    expiringSoon := [⟨PyStr.ofText (longWord ++ " ---".toList), PyStr.lit "a.md",
      PyStr.lit "2026-08-02"⟩]
    expiringSoonCount := 1 }

def tickTime : PyStr :=
  PyStr.lit "2026-08-01T00:00:00+00:00"

/-- What the emitter writes for both, up to the documents that expire. -/
def ledgerHead : List Text :=
  ["id: maintenance-ledger", "type: reference", "status: active", "tier: meta",
    "title: Data Olympus Maintenance Ledger",
    "description: Auto-generated corpus maintenance ledger, regenerated on every index",
    "  build when the computed state changes. Do not edit by hand.",
    "tags:", "- maintenance", "- auto-generated",
    "maintenance:", "  computed_at: '2026-08-01T00:00:00+00:00'",
    "  status_present_in_all_kb_entries: true",
    "  missing_status:", "    count: 0", "    paths: []",
    "  recently_expired:", "    count: 0", "    items: []",
    "  expiring_soon:"].map String.toList

def cleanTail : List Text :=
  ["    count: 0", "    items: []"].map String.toList

/-- The lines before the folded one. -/
def cutTail : List Text :=
  ["    count: 1".toList, "    items:".toList, "    - id: ".toList ++ longWord]

/-- The folded line, and those behind it. -/
def foldedLine : Text :=
  "        ---".toList

def expiringTail : List Text :=
  ["      path: a.md", "      valid_until: '2026-08-02'"].map String.toList

def cleanBlock : Text :=
  joinLines (ledgerHead ++ cleanTail)

/-- The part of the second ledger that precedes the folded line. -/
def cutBlock : Text :=
  joinLines (ledgerHead ++ cutTail)

def expiringBlock : Text :=
  joinLines (ledgerHead ++ cutTail ++ foldedLine :: expiringTail)

/-- The corpus as far as that part shows it. -/
def cutState : MaintenanceState :=
  { expiringState with expiringSoon := [⟨PyStr.ofText longWord, [], []⟩] }

/-- What the loader finds in that part. -/
def cutMaintenance : Mapping :=
  Mapping.ofFields (("computed_at", .str tickTime) :: cleanState.fields.take 3 ++
    [("expiring_soon", bucket "items" 1
      [.dict (Mapping.ofFields [("id", .str (PyStr.ofText longWord))])])])

/-- The loader on the first block. -/
def cleanRuntime : Runtime :=
  Runtime.ofBlocks [(cleanBlock, .dict (ledgerFrontmatter cleanState tickTime))]

/-- The loader on the second block and on its part. -/
def expiringRuntime : Runtime :=
  Runtime.ofBlocks [(cutBlock, .dict (Mapping.ofFields [("maintenance", .dict cutMaintenance)])),
    (expiringBlock, .dict (ledgerFrontmatter expiringState tickTime))]

/-- The emitter on the ledger of the clean corpus. -/
def cleanDump : Mapping → Text :=
  fun _ => cleanBlock ++ ['\n']

/-- The emitter on the ledger of the other corpus. -/
def expiringDump : Mapping → Text :=
  fun _ => expiringBlock ++ ['\n']

/-- `int` on the values of these ledgers. -/
def plainParser : IntParser :=
  ⟨fun _ => none, fun _ => none, fun _ => none⟩

/-- A tick of a service whose index holds no ledger yet. -/
def plainTick (state : MaintenanceState) : Tick where
  state := some state
  indexed := none
  writable := true
  readable := true
  computedAt := tickTime
  commitEnd := .committed

/-- A process that was just started on a worktree without a ledger. -/
def newKeeper : LedgerKeeper :=
  ⟨none, none, 0⟩

/-- A tick, a restart and a tick. -/
def plainEvents (state : MaintenanceState) : List LedgerEvent :=
  [.tick (plainTick state), .restart, .tick (plainTick state)]

theorem forall_plainEvents {state : MaintenanceState} {meets : LedgerEvent → Prop}
    (tick : meets (.tick (plainTick state))) (restart : meets .restart) :
    ∀ event ∈ plainEvents state, meets event := by
  intro event member
  rcases List.mem_cons.mp member with rfl | later
  · exact tick
  · rcases List.mem_cons.mp later with rfl | last
    · exact restart
    · cases List.mem_singleton.mp last
      exact tick

theorem steady_plain (state : MaintenanceState) :
    ∀ event ∈ plainEvents state, event.Steady state := by
  apply forall_plainEvents
  · intro computed found
    exact (Option.some.inj found).symm
  · trivial

/-- Two ticks around a restart, by what is read of the ledger that the first one commits. -/
theorem run_plain {safeDump : Mapping → Text} {runtime : Runtime} {state : MaintenanceState}
    {wtState : Option MaintenanceState}
    (found : parseLedgerState runtime plainParser
      (some (readBack (renderLedgerMarkdown safeDump state tickTime))) = .ok wtState) :
    Run (KeeperStep safeDump runtime plainParser) newKeeper (plainEvents state)
      ⟨some state, some (renderLedgerMarkdown safeDump state tickTime),
        if wtState = some state then 1 else 2⟩ := by
  have missing : (none : Option MaintenanceState) ≠ some state := by
    simp
  have unindexed : parseLedgerState runtime plainParser none = .ok none := rfl
  have one : maybeUpdateLedger safeDump runtime plainParser newKeeper (plainTick state) =
      .ok ⟨some state, some (renderLedgerMarkdown safeDump state tickTime), 1⟩ := by
    simp only [maybeUpdateLedger, newKeeper, plainTick, lastCommittedInWorktree, missing,
      if_false, if_true, unindexed, Option.map_none, Bool.not_true, Bool.false_eq_true]
    simp only [bind, Except.bind, missing, if_false]
    rfl
  apply Run.tail (Run.tail (Run.single (KeeperStep.updated _ _ _ one)) (KeeperStep.restart _))
  apply KeeperStep.updated
  simp only [maybeUpdateLedger, plainTick, lastCommittedInWorktree, missing, if_false,
    if_true, unindexed, Option.map_some, found, Bool.not_true, Bool.false_eq_true]
  simp only [bind, Except.bind, missing, if_false]
  split
  · rfl
  · rfl

/-! ### What the emitter writes -/

/-- The lines that the emitter writes, but for the folded one. -/
def plainLines : List Text :=
  ledgerHead ++ cleanTail ++ cutTail ++ expiringTail

theorem mem_plainLines : ∀ line ∈ plainLines, '\n' ∉ line ∧ '\r' ∉ line ∧
    Block.isDelimiter line = false := by
  have letters : ∀ line ∈ plainLines, '\n' ∉ line ∧ '\r' ∉ line ∧
      (':' ∈ line ∨ 'e' ∈ line) := by
    simp [plainLines, ledgerHead, cleanTail, cutTail, expiringTail, longWord]
  intro line member
  obtain ⟨noFeed, noReturn, colon | letter⟩ := letters line member
  · exact ⟨noFeed, noReturn, Block.isDelimiter_eq_false_of_mem colon rfl (by decide)⟩
  · exact ⟨noFeed, noReturn, Block.isDelimiter_eq_false_of_mem letter rfl (by decide)⟩

theorem mem_plainLines_of_mem_clean {line : Text} (member : line ∈ ledgerHead ++ cleanTail) :
    line ∈ plainLines :=
  List.mem_append_left _ (List.mem_append_left _ member)

theorem mem_plainLines_of_mem_cut {line : Text} (member : line ∈ ledgerHead ++ cutTail) :
    line ∈ plainLines := by
  apply List.mem_append_left
  rcases List.mem_append.mp member with head | tail
  · exact List.mem_append_left _ (List.mem_append_left _ head)
  · exact List.mem_append_right _ tail

/-- No line that the emitter writes has a line break. -/
theorem no_break_clean :
    ∀ line ∈ ledgerHead ++ cleanTail, '\n' ∉ line ∧ '\r' ∉ line := by
  intro line member
  have plain := mem_plainLines line (mem_plainLines_of_mem_clean member)
  exact ⟨plain.1, plain.2.1⟩

theorem no_break_cut : ∀ line ∈ ledgerHead ++ cutTail, '\n' ∉ line ∧ '\r' ∉ line := by
  intro line member
  have plain := mem_plainLines line (mem_plainLines_of_mem_cut member)
  exact ⟨plain.1, plain.2.1⟩

theorem no_break_expiring : ∀ line ∈ ledgerHead ++ cutTail ++ foldedLine :: expiringTail,
    '\n' ∉ line ∧ '\r' ∉ line := by
  rw [List.forall_mem_append, List.forall_mem_cons]
  refine ⟨no_break_cut, by decide, ?_⟩
  intro line member
  have plain := mem_plainLines line (List.mem_append_right _ member)
  exact ⟨plain.1, plain.2.1⟩

theorem no_return_joinLines {lines : List Text}
    (noBreak : ∀ line ∈ lines, '\n' ∉ line ∧ '\r' ∉ line) :
    '\r' ∉ joinLines lines ++ ['\n'] := by
  intro member
  rcases List.mem_append.mp member with inside | last
  · obtain ⟨line, among, here⟩ | separator := mem_joinLines inside
    · exact (noBreak line among).2 here
    · simp at separator
  · simp at last

theorem splitLines_cleanBlock : splitLines cleanBlock = ledgerHead ++ cleanTail :=
  List.splitOn_intercalate '\n' (fun line member => (no_break_clean line member).1)
    (by simp [cleanTail])

theorem splitLines_cutBlock : splitLines cutBlock = ledgerHead ++ cutTail :=
  List.splitOn_intercalate '\n' (fun line member => (no_break_cut line member).1)
    (by simp [cutTail])

theorem splitLines_expiringBlock :
    splitLines expiringBlock = ledgerHead ++ cutTail ++ foldedLine :: expiringTail :=
  List.splitOn_intercalate '\n' (fun line member => (no_break_expiring line member).1)
    (by simp)

theorem emits_clean :
    Emits cleanDump cleanRuntime (ledgerFrontmatter cleanState tickTime) where
  reads_back := by
    refine ⟨cleanBlock, rfl, ?_⟩
    simp [cleanRuntime, Runtime.ofBlocks, Runtime.ofLoader]
  undelimited := by
    unfold Undelimited cleanDump
    rw [splitLines, List.splitOn_append_cons_self, List.forall_mem_append]
    constructor
    · intro line member
      rw [← splitLines, splitLines_cleanBlock] at member
      exact (mem_plainLines line (mem_plainLines_of_mem_clean member)).2.2
    · decide

/-- The ledger of the clean corpus is committed once. -/
theorem clean_ledger_is_committed_once :
    ∃ target, Run (KeeperStep cleanDump cleanRuntime plainParser) newKeeper
        (plainEvents cleanState) target ∧ target.commits ≤ 1 := by
  have noReturn : '\r' ∉ cleanDump (ledgerFrontmatter cleanState tickTime) :=
    no_return_joinLines no_break_clean
  have run := run_plain (parseLedgerState_readBack emits_clean noReturn)
  refine ⟨_, run, ?_⟩
  apply (ledger_is_committed_once cleanDump cleanRuntime plainParser cleanState).2 newKeeper
    (plainEvents cleanState) _ run (steady_plain cleanState)
  · apply forall_plainEvents
    · exact ⟨emits_clean.reads_back, noReturn⟩
    · trivial
  · apply forall_plainEvents
    · exact ⟨emits_clean.undelimited, rfl⟩
    · trivial

theorem expiring_reads_back :
    ReadsBack expiringDump expiringRuntime (ledgerFrontmatter expiringState tickTime) := by
  refine ⟨expiringBlock, rfl, ?_⟩
  have other : expiringBlock ≠ cutBlock := by
    intro same
    have lines := congrArg splitLines same
    rw [splitLines_expiringBlock, splitLines_cutBlock] at lines
    have lengths := congrArg List.length lines
    rw [List.length_append] at lengths
    simp only [List.length_cons] at lengths
    omega
  have isOther : (expiringBlock == cutBlock) = false := beq_eq_false_iff_ne.mpr other
  simp only [expiringRuntime, Runtime.ofBlocks, Runtime.ofLoader, List.lookup_cons, isOther,
    beq_self_eq_true]

/-- The ledger of the other corpus is cut behind the long word. -/
theorem parseLedgerState_expiring (body : Text) :
    parseLedgerState expiringRuntime plainParser
        (some (enclose (expiringBlock ++ ['\n']) body)) = .ok (some cutState) := by
  have whole : ∀ line ∈ ledgerHead ++ cutTail ++ foldedLine :: expiringTail, '\n' ∉ line :=
    fun line member => (no_break_expiring line member).1
  have undelimited : ∀ line ∈ ledgerHead ++ cutTail, Block.isDelimiter line = false := by
    intro line member
    exact (mem_plainLines line (mem_plainLines_of_mem_cut member)).2.2
  have cut := Block.cut_enclose_of_delimiter whole undelimited (by decide) body
  have text : (enclose (expiringBlock ++ ['\n']) body).isEmpty = false := rfl
  have loaded : expiringRuntime.loadMapping cutBlock =
      .ok (Mapping.ofFields [("maintenance", .dict cutMaintenance)]) := by
    apply Runtime.loadMapping_of_dict
    simp [expiringRuntime, Runtime.ofBlocks, Runtime.ofLoader]
  have parsed : expiringRuntime.parseFrontmatter (enclose (expiringBlock ++ ['\n']) body) =
      .ok (Mapping.ofFields [("maintenance", .dict cutMaintenance)],
        joinLines (expiringTail ++ "---".toList :: splitLines body)) := by
    rw [Runtime.parseFrontmatter, expiringBlock, cut]
    exact congrArg (Except.map _) loaded
  have found : (Mapping.ofFields [("maintenance", .dict cutMaintenance)]).get "maintenance" =
      some (.dict cutMaintenance) := by
    rw [Mapping.get_ofFields]
    rfl
  rw [parseLedgerState]
  simp only [text, parsed, found]
  rfl

/-- The emitter folds a long id so that `---` stands alone on a line.  The loader reads its
text back, but the ledger is cut there, and a second ledger of the same state is committed
after a restart. -/
theorem long_id_is_committed_twice :
    (ReadsBack expiringDump expiringRuntime (ledgerFrontmatter expiringState tickTime) ∧
      parseLedgerState expiringRuntime plainParser
          (some (renderLedgerMarkdown expiringDump expiringState tickTime)) ≠
        .ok (some expiringState)) ∧
    ∃ target, Run (KeeperStep expiringDump expiringRuntime plainParser) newKeeper
        (plainEvents expiringState) target ∧
      (∀ event ∈ plainEvents expiringState, event.Steady expiringState) ∧
      (∀ event ∈ plainEvents expiringState,
        event.Printed expiringDump expiringRuntime expiringState) ∧
      target.commits = 2 := by
  have noReturn : '\r' ∉ expiringDump (ledgerFrontmatter expiringState tickTime) :=
    no_return_joinLines no_break_expiring
  have differs : cutState ≠ expiringState := by
    intro same
    have paths := congrArg (fun state => state.expiringSoon.map ExpiryItem.path) same
    revert paths
    decide
  refine ⟨⟨expiring_reads_back, ?_⟩, ?_⟩
  · have cut := parseLedgerState_expiring (ledgerBody expiringState)
    rw [renderLedgerMarkdown, expiringDump, cut]
    intro same
    exact differs (Option.some.inj (Except.ok.inj same))
  · have cut := parseLedgerState_expiring (universalNewlines (ledgerBody expiringState))
    have found : parseLedgerState expiringRuntime plainParser
        (some (readBack (renderLedgerMarkdown expiringDump expiringState tickTime))) =
          .ok (some cutState) := by
      rw [renderLedgerMarkdown, readBack_enclose noReturn]
      exact cut
    refine ⟨_, run_plain found, steady_plain expiringState, ?_, ?_⟩
    · apply forall_plainEvents
      · exact ⟨expiring_reads_back, noReturn⟩
      · trivial
    · have again : some cutState ≠ some expiringState :=
        fun same => differs (Option.some.inj same)
      rw [if_neg again]

end Corpora

end DataOlympus
