import DataOlympus.Enforce.GateCheck
import DataOlympus.Transition.Run

/-!
# What the consult gate rests on

Consults of both triggers, saves that fail, and restarts come in any order.  Whatever date
the ledger then holds is the date of an explicit consult for the same session and
workspace.
-/

namespace DataOlympus

open Lines Python Transition

/-- A consult that was recorded. -/
structure Consult where
  key : ConsultKey
  now : Time
  trigger : Trigger
  signals : List Signal

/-- A consult that can clear the gate for a session and a workspace. -/
def Consult.Clears (consult : Consult) (key : ConsultKey) : Prop :=
  consult.trigger = .explicit ∧ consult.key = key

/-- The server's ledger, its file, and the consults so far. -/
structure LedgerState where
  config : LedgerConfig
  entries : LedgerEntries
  file : LedgerFile
  clock : Time
  consults : List Consult

namespace LedgerState

/-- A new ledger. -/
def start (config : LedgerConfig) (clock : Time) : LedgerState :=
  ⟨config, .empty, .missing, clock, []⟩

/-- `record(…)`.  When `_save` raises, the file stays as it was. -/
def record (state : LedgerState) (ruleIds : List Text) (consult : Consult) (saved : Bool) :
    LedgerState :=
  let entries := state.entries.record state.config consult.key ruleIds consult.now
    consult.trigger consult.signals
  { state with
    entries := entries
    file := if state.config.persistent && saved then entries.save else state.file
    clock := consult.now
    consults := consult :: state.consults }

/-- A new `ConsultationLedger` over the same file. -/
def restart (state : LedgerState) (config : LedgerConfig) : LedgerState :=
  { state with
    config := config
    entries :=
      if config.persistent then LedgerEntries.enforceCap state.file.load config.maxEntries
      else .empty }

end LedgerState

inductive LedgerOp where
  | record (ruleIds : List Text) (consult : Consult) (saved : Bool)
  | restart (config : LedgerConfig)

/-- The steps of the ledger under a clock that does not go back. -/
inductive LedgerStep : LedgerState → LedgerOp → LedgerState → Prop
  | record (state : LedgerState) (ruleIds : List Text) (consult : Consult) (saved : Bool)
      (onward : state.clock ≤ consult.now) :
      LedgerStep state (.record ruleIds consult saved) (state.record ruleIds consult saved)
  | restart (state : LedgerState) (config : LedgerConfig) :
      LedgerStep state (.restart config) (state.restart config)

/-- Every date in the entries is that of a consult that clears. -/
structure LedgerEntries.Backed (entries : LedgerEntries) (consults : List Consult)
    (clock : Time) : Prop extends entries.Dated clock where
  ofConsult : ∀ key ts, entries.ConsultedAt key ts →
    ∃ consult ∈ consults, consult.Clears key ∧ consult.now = ts
  ofCoverage : ∀ key signal ts, entries.CoveredAt key signal ts →
    ∃ consult ∈ consults, consult.Clears key ∧ consult.now = ts ∧ signal ∈ consult.signals

namespace LedgerEntries.Backed

variable {entries : LedgerEntries} {config : LedgerConfig} {consults : List Consult}
  {clock cutoff : Time} {maxEntries : Nat}

theorem empty : LedgerEntries.Backed .empty consults clock where
  touched _ _ member := absurd member List.not_mem_nil
  consulted _ _ member := absurd member List.not_mem_nil
  covered _ _ member := absurd member List.not_mem_nil
  ofConsult := by
    rintro key ts ⟨entry, member, -⟩
    exact absurd member List.not_mem_nil
  ofCoverage := by
    rintro key signal ts ⟨entry, member, -⟩
    exact absurd member List.not_mem_nil

/-- Entries stay backed when more consults come. -/
theorem mono {later : List Consult} {next : Time} (backed : entries.Backed consults clock)
    (kept : ∀ consult ∈ consults, consult ∈ later) (onward : clock ≤ next) :
    entries.Backed later next where
  touched key entry member := (backed.touched key entry member).trans onward
  consulted := backed.consulted
  covered := backed.covered
  ofConsult key ts consulted := by
    obtain ⟨consult, made, clears⟩ := backed.ofConsult key ts consulted
    exact ⟨consult, kept consult made, clears⟩
  ofCoverage key signal ts covered := by
    obtain ⟨consult, made, clears⟩ := backed.ofCoverage key signal ts covered
    exact ⟨consult, kept consult made, clears⟩

theorem enforceCap (backed : entries.Backed consults clock) :
    (entries.enforceCap maxEntries).Backed consults clock where
  touched key entry member := backed.touched key entry (mem_of_mem_enforceCap member)
  consulted key entry member := backed.consulted key entry (mem_of_mem_enforceCap member)
  covered key entry member := backed.covered key entry (mem_of_mem_enforceCap member)
  ofConsult key ts consulted := backed.ofConsult key ts (consultedAt_of_enforceCap consulted)
  ofCoverage key signal ts covered :=
    backed.ofCoverage key signal ts (coveredAt_of_enforceCap covered)

theorem prune (backed : entries.Backed consults clock) :
    (entries.prune cutoff).Backed consults clock where
  touched key entry member := by
    obtain ⟨whole, member, -, rfl⟩ := mem_prune.mp member
    exact backed.touched key whole member
  consulted key entry member := by
    obtain ⟨whole, member, -, rfl⟩ := mem_prune.mp member
    exact backed.consulted key whole member
  covered key entry member signal ts kept := by
    obtain ⟨whole, member, -, rfl⟩ := mem_prune.mp member
    exact backed.covered key whole member signal ts (Dict.mem_filter.mp kept).1
  ofConsult key ts consulted := backed.ofConsult key ts (consultedAt_of_prune consulted)
  ofCoverage key signal ts covered :=
    backed.ofCoverage key signal ts ((coveredAt_prune backed.toDated).mp covered).1

/-- A consult is dated by itself and what it leaves by earlier consults. -/
theorem touch {consult : Consult} {ruleIds : List Text} (backed : entries.Backed consults clock)
    (onward : clock ≤ consult.now) :
    (entries.touch consult.key ruleIds consult.now consult.trigger consult.signals).Backed
      (consult :: consults) consult.now := by
  have earlier := backed.mono (fun _ => List.mem_cons_of_mem consult) onward
  obtain ⟨key, now, trigger, signals⟩ := consult
  have no_later_signal : ∀ signal ts, entries.CoveredAt key signal ts → ts ≤ now := by
    rintro signal ts ⟨entry, member, covered⟩
    exact (earlier.covered key entry member signal ts covered).trans
      (earlier.touched key entry member)
  have no_later_consult : ∀ ts, entries.ConsultedAt key ts → ts ≤ now := by
    rintro ts ⟨entry, member, consulted⟩
    exact (earlier.consulted key entry member ts consulted).trans
      (earlier.touched key entry member)
  refine ⟨⟨?_, ?_, ?_⟩, ?_, ?_⟩
  · intro other entry member
    obtain ⟨rfl, rfl⟩ | ⟨-, before⟩ := mem_touch.mp member
    · cases trigger <;> exact le_rfl
    · exact earlier.touched other entry before
  · intro other entry member ts dated
    obtain ⟨rfl, rfl⟩ | ⟨-, before⟩ := mem_touch.mp member
    · cases trigger with
      | explicit => exact (Option.some.inj dated).ge
      | promptHook =>
          apply no_later_consult
          exact consultedAt_touch_promptHook.mp ⟨_, member, dated⟩
    · exact earlier.consulted other entry before ts dated
  · intro other entry member signal ts dated
    obtain ⟨rfl, rfl⟩ | ⟨-, before⟩ := mem_touch.mp member
    · cases trigger with
      | explicit =>
          obtain ⟨-, rfl, -⟩ | prior := coveredAt_of_touch_explicit ⟨_, member, dated⟩
          · exact le_rfl
          · exact no_later_signal signal ts prior
      | promptHook =>
          apply no_later_signal
          exact coveredAt_touch_promptHook.mp ⟨_, member, dated⟩
    · exact earlier.covered other entry before signal ts dated
  · intro other ts consulted
    cases trigger with
    | explicit =>
        obtain ⟨rfl, rfl⟩ | before := consultedAt_of_touch_explicit consulted
        · exact ⟨_, List.mem_cons_self, ⟨rfl, rfl⟩, rfl⟩
        · exact earlier.ofConsult other ts before
    | promptHook => exact earlier.ofConsult other ts (consultedAt_touch_promptHook.mp consulted)
  · intro other signal ts covered
    cases trigger with
    | explicit =>
        obtain ⟨rfl, rfl, listed⟩ | before := coveredAt_of_touch_explicit covered
        · exact ⟨_, List.mem_cons_self, ⟨rfl, rfl⟩, rfl, listed⟩
        · exact earlier.ofCoverage other signal ts before
    | promptHook =>
        exact earlier.ofCoverage other signal ts (coveredAt_touch_promptHook.mp covered)

theorem record {consult : Consult} {ruleIds : List Text} (backed : entries.Backed consults clock)
    (onward : clock ≤ consult.now) :
    (entries.record config consult.key ruleIds consult.now consult.trigger consult.signals).Backed
      (consult :: consults) consult.now :=
  (backed.touch onward).prune.enforceCap

end LedgerEntries.Backed

/-- The ledger and its file are backed by the consults so far. -/
structure LedgerState.Sound (state : LedgerState) : Prop where
  entries : state.entries.Backed state.consults state.clock
  file : LedgerEntries.Backed state.file.load state.consults state.clock

theorem LedgerState.sound_start (config : LedgerConfig) (clock : Time) :
    (LedgerState.start config clock).Sound :=
  ⟨.empty, .empty⟩

/-- Every step keeps the ledger backed. -/
theorem ledgerStep_preserves_sound : System.Preserves LedgerStep LedgerState.Sound := by
  intro source op target taken sound
  cases taken with
  | record ruleIds consult saved onward =>
      have recorded : (source.record ruleIds consult saved).entries.Backed
          (consult :: source.consults) consult.now :=
        sound.entries.record onward
      constructor
      · exact recorded
      · simp only [LedgerState.record]
        split
        · rw [LedgerEntries.load_save]
          exact recorded
        · exact sound.file.mono (fun _ => List.mem_cons_of_mem consult) onward
  | restart config =>
      constructor
      · simp only [LedgerState.restart]
        split
        · exact sound.file.enforceCap
        · exact .empty
      · exact sound.file

section Gate

variable {state : LedgerState} {unicode : Unicode} {classifier : Classifier} {key : ConsultKey}
  {action : GateAction} {now ttl : Time}

/-- Under intent clearance, each signal of an action that passes was covered. -/
theorem LedgerState.Sound.covered (sound : state.Sound)
    (allowed : (gateCheck unicode classifier state.entries .intent key action now ttl).allows = true)
    {signal : Signal} (carried : signal ∈ action.signals unicode classifier) :
    ∃ consult ∈ state.consults, consult.Clears key ∧ now - consult.now ≤ ttl ∧
      consult.now ≤ state.clock ∧
        ∃ covering ∈ consult.signals, signal.coveredBy [covering] = true := by
  have governed : action.Governed unicode classifier := List.ne_nil_of_mem carried
  have covered := (gateCheck_intent_allows governed).mp allowed signal carried
  obtain ⟨covering, fresh, covers⟩ := Signal.coveredBy_iff.mp covered
  obtain ⟨ts, dated, within⟩ := LedgerEntries.mem_freshSignals.mp fresh
  obtain ⟨consult, made, clears, rfl, listed⟩ := sound.entries.ofCoverage key covering ts dated
  obtain ⟨entry, member, dated⟩ := dated
  have past := (sound.entries.covered key entry member covering consult.now dated).trans
    (sound.entries.touched key entry member)
  exact ⟨consult, made, clears, within, past, covering, listed, covers⟩

/-- Under pair clearance, an action passes after an explicit consult. -/
theorem LedgerState.Sound.consulted (sound : state.Sound)
    (governed : action.Governed unicode classifier)
    (allowed : (gateCheck unicode classifier state.entries .pair key action now ttl).allows = true) :
    ∃ consult ∈ state.consults, consult.Clears key ∧ now - consult.now ≤ ttl ∧
      consult.now ≤ state.clock := by
  have fresh := (gateCheck_pair_allows governed).mp allowed
  obtain ⟨ts, dated, within⟩ := LedgerEntries.isFresh_eq_true_iff.mp fresh
  obtain ⟨consult, made, clears, rfl⟩ := sound.entries.ofConsult key ts dated
  obtain ⟨entry, member, dated⟩ := dated
  have past := (sound.entries.consulted key entry member consult.now dated).trans
    (sound.entries.touched key entry member)
  exact ⟨consult, made, clears, within, past⟩

end Gate

section PromptHook

variable {state : LedgerState} {consult : Consult} {ruleIds : List Text} {saved : Bool}
  {other : ConsultKey} {signal : Signal} {later ttl : Time}

/-- The pairs of a session and a workspace that the retention leaves after a consult. -/
def LedgerState.retained (state : LedgerState) (consult : Consult) (ruleIds : List Text) :
    LedgerEntries :=
  (state.entries.touch consult.key ruleIds consult.now consult.trigger consult.signals).prune
    (consult.now - state.config.retentionSec)

/-- A prompt-hook record adds no coverage. -/
theorem LedgerState.Sound.of_promptHook (sound : state.Sound) (onward : state.clock ≤ consult.now)
    (hook : consult.trigger = .promptHook)
    (fresh : signal ∈ (state.record ruleIds consult saved).entries.freshSignals other later ttl) :
    signal ∈ state.entries.freshSignals other later ttl := by
  obtain ⟨ts, covered, within⟩ := LedgerEntries.mem_freshSignals.mp fresh
  have pruned := LedgerEntries.coveredAt_of_enforceCap covered
  have dated : (state.entries.touch consult.key ruleIds consult.now consult.trigger
      consult.signals).Dated consult.now :=
    (sound.entries.touch onward).toDated
  have touched := ((LedgerEntries.coveredAt_prune dated).mp pruned).1
  rw [hook] at touched
  have before := LedgerEntries.coveredAt_touch_promptHook.mp touched
  exact LedgerEntries.mem_freshSignals.mpr ⟨ts, before, within⟩

/-- A prompt-hook record within the capacity takes no coverage away. -/
theorem LedgerState.Sound.promptHook (sound : state.Sound) (onward : state.clock ≤ consult.now)
    (hook : consult.trigger = .promptHook) (later_le : consult.now ≤ later)
    (ttl_le : ttl ≤ state.config.retentionSec)
    (room : (state.retained consult ruleIds).items.length ≤ state.config.maxEntries)
    (fresh : signal ∈ state.entries.freshSignals other later ttl) :
    signal ∈ (state.record ruleIds consult saved).entries.freshSignals other later ttl := by
  obtain ⟨ts, covered, within⟩ := LedgerEntries.mem_freshSignals.mp fresh
  have dated : (state.entries.touch consult.key ruleIds consult.now consult.trigger
      consult.signals).Dated consult.now :=
    (sound.entries.touch onward).toDated
  have touched : (state.entries.touch consult.key ruleIds consult.now consult.trigger
      consult.signals).CoveredAt other signal ts := by
    rw [hook]
    exact LedgerEntries.coveredAt_touch_promptHook.mpr covered
  have late : consult.now - state.config.retentionSec ≤ ts := by
    have bound : later - ts ≤ state.config.retentionSec := within.trans ttl_le
    have early : consult.now - ts ≤ later - ts := Int.sub_le_sub_right later_le ts
    exact Int.sub_le_of_sub_le (early.trans bound)
  have pruned : (state.retained consult ruleIds).CoveredAt other signal ts :=
    (LedgerEntries.coveredAt_prune dated).mpr ⟨touched, late⟩
  have kept : (state.record ruleIds consult saved).entries = state.retained consult ruleIds :=
    LedgerEntries.enforceCap_of_length_le room
  rw [kept]
  exact LedgerEntries.mem_freshSignals.mpr ⟨ts, pruned, within⟩

/-- A restart after a save restores the entries. -/
theorem LedgerState.restart_record (state : LedgerState) (ruleIds : List Text) (consult : Consult)
    (persistent : state.config.persistent = true) :
    ((state.record ruleIds consult true).restart state.config).entries =
      (state.record ruleIds consult true).entries := by
  have saved : (state.record ruleIds consult true).file =
      (state.record ruleIds consult true).entries.save := by
    simp only [record, persistent, Bool.and_true, if_true]
  simp only [restart, persistent, if_true]
  rw [saved, LedgerEntries.load_save]
  exact LedgerEntries.enforceCap_of_length_le LedgerEntries.length_enforceCap_le

end PromptHook

/-- In every state that a ledger reaches, the gate passes a governed action under intent
clearance only where fresh explicit consults of the session and the workspace covered its
signals, and under pair clearance only after such a consult.  A prompt-hook record adds no
coverage and, within the capacity, takes none away; a restart keeps what was saved. -/
theorem consult_gate_rests_on_consults (unicode : Unicode) (classifier : Classifier)
    {config : LedgerConfig} {clock : Time} {ops : List LedgerOp} {state : LedgerState}
    (run : Run LedgerStep (LedgerState.start config clock) ops state) :
    (∀ key action now ttl, state.clock ≤ now →
      (gateCheck unicode classifier state.entries .intent key action now ttl).allows = true →
        ∀ signal ∈ action.signals unicode classifier, ∃ consult ∈ state.consults,
          consult.Clears key ∧ consult.now ≤ now ∧ now - consult.now ≤ ttl ∧
            ∃ covering ∈ consult.signals, signal.coveredBy [covering] = true) ∧
    (∀ key action now ttl, state.clock ≤ now → action.Governed unicode classifier →
      (gateCheck unicode classifier state.entries .pair key action now ttl).allows = true →
        ∃ consult ∈ state.consults,
          consult.Clears key ∧ consult.now ≤ now ∧ now - consult.now ≤ ttl) ∧
    (∀ ruleIds consult saved, state.clock ≤ consult.now → consult.trigger = .promptHook →
      (∀ key later ttl, ∀ signal ∈
        (state.record ruleIds consult saved).entries.freshSignals key later ttl,
          signal ∈ state.entries.freshSignals key later ttl) ∧
      ((state.retained consult ruleIds).items.length ≤ state.config.maxEntries →
        ∀ key later ttl, consult.now ≤ later → ttl ≤ state.config.retentionSec →
          ∀ signal ∈ state.entries.freshSignals key later ttl,
            signal ∈ (state.record ruleIds consult saved).entries.freshSignals key later ttl)) ∧
    (∀ ruleIds consult, state.config.persistent = true → ∀ key later ttl,
      ((state.record ruleIds consult true).restart state.config).entries.freshSignals
          key later ttl =
        (state.record ruleIds consult true).entries.freshSignals key later ttl) := by
  have sound := run.invariant ledgerStep_preserves_sound (LedgerState.sound_start config clock)
  refine ⟨?_, ?_, ?_, ?_⟩
  · intro key action now ttl onward allowed signal carried
    obtain ⟨consult, made, clears, within, past, covers⟩ := sound.covered allowed carried
    exact ⟨consult, made, clears, past.trans onward, within, covers⟩
  · intro key action now ttl onward governed allowed
    obtain ⟨consult, made, clears, within, past⟩ := sound.consulted governed allowed
    exact ⟨consult, made, clears, past.trans onward, within⟩
  · intro ruleIds consult saved onward hook
    constructor
    · intro key later ttl signal fresh
      exact sound.of_promptHook onward hook fresh
    · intro room key later ttl later_le ttl_le signal fresh
      exact sound.promptHook onward hook later_le ttl_le room fresh
  · intro ruleIds consult persistent key later ttl
    rw [state.restart_record ruleIds consult persistent]

section Runs

/-- The shipped vocabulary. -/
def shippedClassifier : Classifier :=
  Classifier.fromConfig .ascii ⟨[], [], []⟩

/-- An agent's explicit consult at time 0 about a module file. -/
def moduleConsult : Consult :=
  ⟨("s".toList, "w".toList), 0, .explicit, [.path "go.mod".toList]⟩

theorem consult_gate_rests_on_consults_module :
    ∃ consult ∈ [moduleConsult], consult.Clears ("s".toList, "w".toList) ∧ consult.now ≤ 5 ∧
      5 - consult.now ≤ 9 ∧
        ∃ covering ∈ consult.signals, (Signal.path "*/go.mod".toList).coveredBy [covering] = true :=
  (consult_gate_rests_on_consults .ascii shippedClassifier
    (Run.single (LedgerStep.record (LedgerState.start ⟨true, 9, 2⟩ 0) [] moduleConsult true
      le_rfl))).1 ("s".toList, "w".toList) ⟨[], some "a/go.mod".toList, []⟩ 5 9 (by decide)
        (by decide) (.path "*/go.mod".toList) (by decide)

/-- Under pair clearance a consult about nothing passes an action, and a ledger of one pair
forgets a fresh consult at the prompt of another session. -/
theorem pair_clearance_and_capacity_lose_coverage :
    (∃ ops state, Run LedgerStep (LedgerState.start ⟨false, 9, 2⟩ 0) ops state ∧
      (gateCheck .ascii shippedClassifier state.entries .pair ("s".toList, "w".toList)
        ⟨[], some "go.mod".toList, []⟩ 0 9).allows = true ∧
      ∃ signal ∈ GateAction.signals .ascii shippedClassifier ⟨[], some "go.mod".toList, []⟩,
        ∀ consult ∈ state.consults, ∀ covering ∈ consult.signals,
          signal.coveredBy [covering] = false) ∧
    ∃ ops state consult, Run LedgerStep (LedgerState.start ⟨false, 9, 1⟩ 0) ops state ∧
      state.clock ≤ consult.now ∧ consult.trigger = .promptHook ∧
      ∃ signal ∈ state.entries.freshSignals ("s".toList, "w".toList) 1 9,
        signal ∉ (state.record [] consult true).entries.freshSignals
          ("s".toList, "w".toList) 1 9 := by
  constructor
  · refine ⟨_, _, Run.single (LedgerStep.record _ [] ⟨("s".toList, "w".toList), 0, .explicit, []⟩
      true le_rfl), by decide, .path "go.mod".toList, by decide, ?_⟩
    intro consult made covering listed
    cases List.mem_singleton.mp made
    exact absurd listed List.not_mem_nil
  · refine ⟨_, _, ⟨("t".toList, "w".toList), 1, .promptHook, []⟩,
      Run.single (LedgerStep.record _ [] moduleConsult true le_rfl), by decide, rfl,
      .path "go.mod".toList, by decide, by decide⟩

end Runs

end DataOlympus
