import DataOlympus.Enforce.Classifier
import DataOlympus.Python.Clock
import DataOlympus.Python.Dict

/-!
# The consultation ledger

Which sessions consulted for which workspaces, when, and what their explicit consults
covered.  Every operation is described by the times at which the ledger dates a signal.
-/

namespace DataOlympus

open Lines Python

/-- Where a consult comes from. -/
inductive Trigger where
  | explicit
  | promptHook
  deriving DecidableEq

/-- The coercion of `trigger` in `kb_consult_fn`. -/
def Trigger.ofText (trigger : Text) : Trigger :=
  if trigger = "prompt_hook".toList then .promptHook else .explicit

/-- A session and a workspace. -/
abbrev ConsultKey : Type :=
  Text × Text

/-- `LedgerEntry`. -/
structure LedgerEntry where
  consultedAt : Time
  ruleIds : List Text
  explicitAt : Option Time
  explicitSignals : Dict Signal Time

/-- An object of the ledger file.  A key that older files lack is `none`. -/
structure LedgerRow where
  sessionId : Text
  workspace : Text
  consultedAt : Time
  ruleIds : Option (List Text)
  explicitAt : Option (Option Time)
  explicitSignals : Option (Dict Signal Time)

/-- What is found at `_path`. -/
inductive LedgerFile where
  | missing
  /-- Not JSON, or rows that are not of the form above. -/
  | unreadable
  | rows (rows : List LedgerRow)

/-- The parameters of `ConsultationLedger`. -/
structure LedgerConfig where
  /-- Whether there is a `path`. -/
  persistent : Bool
  retentionSec : Time
  maxEntries : Nat

/-- `_entries`. -/
abbrev LedgerEntries : Type :=
  Dict ConsultKey LedgerEntry

/-- The row of `_save`. -/
def LedgerEntry.row (key : ConsultKey) (entry : LedgerEntry) : LedgerRow where
  sessionId := key.1
  workspace := key.2
  consultedAt := entry.consultedAt
  ruleIds := some entry.ruleIds
  explicitAt := some entry.explicitAt
  explicitSignals := some entry.explicitSignals

/-- The entry of `_load`. -/
def LedgerRow.entry (row : LedgerRow) : LedgerEntry where
  consultedAt := row.consultedAt
  ruleIds := row.ruleIds.getD []
  explicitAt := row.explicitAt.getD (some row.consultedAt)
  explicitSignals := row.explicitSignals.getD .empty

/-- `_load()`. -/
def LedgerFile.load : LedgerFile → LedgerEntries
  | .rows saved => saved.foldl
      (fun entries row => entries.set (row.sessionId, row.workspace) row.entry) .empty
  | _ => .empty

/-- The order of `_enforce_cap`. -/
def newestFirst (first second : ConsultKey × LedgerEntry) : Prop :=
  second.2.consultedAt ≤ first.2.consultedAt

instance : DecidableRel newestFirst :=
  fun first second => inferInstanceAs (Decidable (second.2.consultedAt ≤ first.2.consultedAt))

namespace LedgerEntries

/-- `_save()`. -/
def save (entries : LedgerEntries) : LedgerFile :=
  .rows (entries.items.map fun item => item.2.row item.1)

/-- `_enforce_cap()`. -/
def enforceCap (entries : LedgerEntries) (maxEntries : Nat) : LedgerEntries :=
  if maxEntries < entries.items.length then entries.sortTake newestFirst maxEntries else entries

/-- What `_evict` keeps from a cutoff on. -/
def prune (entries : LedgerEntries) (cutoff : Time) : LedgerEntries :=
  (entries.filter fun _ entry => cutoff ≤ entry.consultedAt).mapValues fun entry =>
    { entry with explicitSignals := entry.explicitSignals.filter fun _ ts => cutoff ≤ ts }

/-- `_evict(now)`. -/
def evict (entries : LedgerEntries) (config : LedgerConfig) (now : Time) : LedgerEntries :=
  (entries.prune (now - config.retentionSec)).enforceCap config.maxEntries

/-- The assignment of `record`. -/
def touch (entries : LedgerEntries) (key : ConsultKey) (ruleIds : List Text) (now : Time)
    (trigger : Trigger) (signals : List Signal) : LedgerEntries :=
  let prior := entries.get key
  let explicitSignals := (prior.map LedgerEntry.explicitSignals).getD .empty
  match trigger with
  | .explicit => entries.set key ⟨now, ruleIds, some now, explicitSignals.setAll signals now⟩
  | .promptHook =>
      entries.set key ⟨now, ruleIds, prior.bind LedgerEntry.explicitAt, explicitSignals⟩

/-- `record(…)` in memory. -/
def record (entries : LedgerEntries) (config : LedgerConfig) (key : ConsultKey)
    (ruleIds : List Text) (now : Time) (trigger : Trigger) (signals : List Signal) :
    LedgerEntries :=
  (entries.touch key ruleIds now trigger signals).evict config now

/-- `is_fresh(…)`. -/
def isFresh (entries : LedgerEntries) (key : ConsultKey) (now ttl : Time)
    (requireExplicit : Bool) : Bool :=
  match entries.get key with
  | none => false
  | some entry =>
      match if requireExplicit then entry.explicitAt else some entry.consultedAt with
      | none => false
      | some ts => now - ts ≤ ttl

/-- `fresh_signals(…)`. -/
def freshSignals (entries : LedgerEntries) (key : ConsultKey) (now ttl : Time) : List Signal :=
  match entries.get key with
  | none => []
  | some entry => (entry.explicitSignals.items.filter fun item => now - item.2 ≤ ttl).map Prod.fst

/-- The pairs that were touched at a time or later. -/
def touchedSince (entries : LedgerEntries) (now : Time) : List ConsultKey :=
  (entries.items.filter fun item => now ≤ item.2.consultedAt).map Prod.fst

/-- The ledger dates the last explicit consult. -/
def ConsultedAt (entries : LedgerEntries) (key : ConsultKey) (ts : Time) : Prop :=
  ∃ entry, (key, entry) ∈ entries.items ∧ entry.explicitAt = some ts

/-- The ledger dates the last explicit consult that covered a signal. -/
def CoveredAt (entries : LedgerEntries) (key : ConsultKey) (signal : Signal) (ts : Time) : Prop :=
  ∃ entry, (key, entry) ∈ entries.items ∧ (signal, ts) ∈ entry.explicitSignals.items

/-- No date of an entry is after its last touch, and no touch after `clock`. -/
structure Dated (entries : LedgerEntries) (clock : Time) : Prop where
  touched : ∀ key entry, (key, entry) ∈ entries.items → entry.consultedAt ≤ clock
  consulted : ∀ key entry, (key, entry) ∈ entries.items →
    ∀ ts, entry.explicitAt = some ts → ts ≤ entry.consultedAt
  covered : ∀ key entry, (key, entry) ∈ entries.items →
    ∀ signal ts, (signal, ts) ∈ entry.explicitSignals.items → ts ≤ entry.consultedAt

variable {entries : LedgerEntries} {config : LedgerConfig} {key other : ConsultKey}
  {ruleIds : List Text} {signal : Signal} {signals : List Signal} {now ts ttl cutoff clock : Time}
  {maxEntries : Nat}

theorem isFresh_eq_true_iff :
    entries.isFresh key now ttl true = true ↔ ∃ ts, entries.ConsultedAt key ts ∧ now - ts ≤ ttl := by
  unfold isFresh ConsultedAt
  constructor
  · intro fresh
    split at fresh
    · exact absurd fresh Bool.false_ne_true
    · rename_i entry found
      simp only [if_true] at fresh
      split at fresh
      · exact absurd fresh Bool.false_ne_true
      · rename_i ts dated
        exact ⟨ts, ⟨entry, Dict.get_eq_some_iff.mp found, dated⟩, of_decide_eq_true fresh⟩
  · rintro ⟨ts, ⟨entry, member, dated⟩, fresh⟩
    rw [Dict.get_eq_some_iff.mpr member]
    simp only [if_true, dated]
    exact decide_eq_true fresh

theorem mem_freshSignals :
    signal ∈ entries.freshSignals key now ttl ↔
      ∃ ts, entries.CoveredAt key signal ts ∧ now - ts ≤ ttl := by
  unfold freshSignals CoveredAt
  constructor
  · intro fresh
    split at fresh
    · exact absurd fresh List.not_mem_nil
    · rename_i entry found
      obtain ⟨⟨_, ts⟩, kept, rfl⟩ := List.mem_map.mp fresh
      obtain ⟨member, within⟩ := List.mem_filter.mp kept
      exact ⟨ts, ⟨entry, Dict.get_eq_some_iff.mp found, member⟩, of_decide_eq_true within⟩
  · rintro ⟨ts, ⟨entry, found, member⟩, within⟩
    rw [Dict.get_eq_some_iff.mpr found]
    exact List.mem_map.mpr
      ⟨(signal, ts), List.mem_filter.mpr ⟨member, decide_eq_true within⟩, rfl⟩

/-! ### Saving and loading -/

/-- Loading what was saved restores the entries. -/
theorem load_save (entries : LedgerEntries) : entries.save.load = entries := by
  simp only [save, LedgerFile.load]
  rw [List.foldl_map]
  exact Dict.foldl_set_items entries

/-! ### Eviction -/

theorem mem_of_mem_enforceCap {item : ConsultKey × LedgerEntry}
    (member : item ∈ (entries.enforceCap maxEntries).items) : item ∈ entries.items := by
  unfold enforceCap at member
  split at member
  · exact Dict.mem_of_mem_sortTake member
  · exact member

theorem enforceCap_of_length_le (within : entries.items.length ≤ maxEntries) :
    entries.enforceCap maxEntries = entries :=
  if_neg (not_lt_of_ge within)

theorem length_enforceCap_le : (entries.enforceCap maxEntries).items.length ≤ maxEntries := by
  unfold enforceCap
  split
  · exact List.length_take_le _ _
  · exact not_lt.mp ‹_›

theorem nodup_touchedSince : (entries.touchedSince now).Nodup :=
  entries.once.sublist (List.filter_sublist.map Prod.fst)

theorem mem_touchedSince : key ∈ entries.touchedSince now ↔
    ∃ entry, (key, entry) ∈ entries.items ∧ now ≤ entry.consultedAt := by
  unfold touchedSince
  rw [List.mem_map]
  constructor
  · rintro ⟨⟨_, entry⟩, kept, rfl⟩
    obtain ⟨member, late⟩ := List.mem_filter.mp kept
    exact ⟨entry, member, of_decide_eq_true late⟩
  · rintro ⟨entry, member, late⟩
    exact ⟨(key, entry), List.mem_filter.mpr ⟨member, decide_eq_true late⟩, rfl⟩

/-- The cap keeps a pair when few others were touched since. -/
theorem mem_enforceCap {item : ConsultKey × LedgerEntry} (member : item ∈ entries.items)
    (few : ((entries.touchedSince item.2.consultedAt).filter fun pair => pair ≠ item.1).length <
      maxEntries) : item ∈ (entries.enforceCap maxEntries).items := by
  unfold enforceCap
  split
  · apply Dict.mem_sortTake _ _ member
    · rw [touchedSince, List.filter_map, List.length_map, List.filter_filter] at few
      convert few using 4
      exact Bool.decide_and _ _
    · intro first second
      exact le_total _ _
    · intro first second third newer newest
      exact le_trans newest newer
  · exact member

/-- The cap takes no dates that were not there. -/
theorem coveredAt_of_enforceCap (covered : (entries.enforceCap maxEntries).CoveredAt key signal ts) :
    entries.CoveredAt key signal ts := by
  obtain ⟨entry, member, dated⟩ := covered
  exact ⟨entry, mem_of_mem_enforceCap member, dated⟩

theorem consultedAt_of_enforceCap (consulted : (entries.enforceCap maxEntries).ConsultedAt key ts) :
    entries.ConsultedAt key ts := by
  obtain ⟨entry, member, dated⟩ := consulted
  exact ⟨entry, mem_of_mem_enforceCap member, dated⟩

theorem mem_prune {item : ConsultKey × LedgerEntry} :
    item ∈ (entries.prune cutoff).items ↔ ∃ entry, (item.1, entry) ∈ entries.items ∧
      cutoff ≤ entry.consultedAt ∧ item.2 =
        { entry with explicitSignals := entry.explicitSignals.filter fun _ ts => cutoff ≤ ts } := by
  unfold prune
  rw [Dict.mem_mapValues]
  constructor
  · rintro ⟨entry, member, made⟩
    obtain ⟨member, late⟩ := Dict.mem_filter.mp member
    exact ⟨entry, member, of_decide_eq_true late, made⟩
  · rintro ⟨entry, member, late, made⟩
    exact ⟨entry, Dict.mem_filter.mpr ⟨member, decide_eq_true late⟩, made⟩

/-- Pruning keeps the coverage from the cutoff on. -/
theorem coveredAt_prune (dated : entries.Dated clock) :
    (entries.prune cutoff).CoveredAt key signal ts ↔
      entries.CoveredAt key signal ts ∧ cutoff ≤ ts := by
  constructor
  · rintro ⟨entry, pruned, covered⟩
    obtain ⟨whole, member, -, rfl⟩ := mem_prune.mp pruned
    obtain ⟨covered, late⟩ := Dict.mem_filter.mp covered
    exact ⟨⟨whole, member, covered⟩, of_decide_eq_true late⟩
  · rintro ⟨⟨entry, member, covered⟩, late⟩
    have touched := dated.covered key entry member signal ts covered
    refine ⟨_, mem_prune.mpr ⟨entry, member, late.trans touched, rfl⟩, ?_⟩
    exact Dict.mem_filter.mpr ⟨covered, decide_eq_true late⟩

/-- Pruning keeps the explicit consults whose entries are kept. -/
theorem consultedAt_of_prune (consulted : (entries.prune cutoff).ConsultedAt key ts) :
    entries.ConsultedAt key ts := by
  obtain ⟨entry, pruned, dated⟩ := consulted
  obtain ⟨whole, member, -, rfl⟩ := mem_prune.mp pruned
  exact ⟨whole, member, dated⟩

/-! ### Recording -/

section Touch

variable {trigger : Trigger}

/-- What the ledger holds for a key before a consult. -/
def priorSignals (entries : LedgerEntries) (key : ConsultKey) : Dict Signal Time :=
  ((entries.get key).map LedgerEntry.explicitSignals).getD .empty

theorem mem_priorSignals :
    (signal, ts) ∈ (entries.priorSignals key).items ↔ entries.CoveredAt key signal ts := by
  unfold priorSignals CoveredAt
  constructor
  · intro member
    cases found : entries.get key with
    | none =>
        rw [found] at member
        exact absurd member List.not_mem_nil
    | some entry =>
        rw [found] at member
        exact ⟨entry, Dict.get_eq_some_iff.mp found, member⟩
  · rintro ⟨entry, member, covered⟩
    rw [Dict.get_eq_some_iff.mpr member]
    exact covered

/-- The entry that `record` makes. -/
def touched (entries : LedgerEntries) (key : ConsultKey) (ruleIds : List Text) (now : Time) :
    Trigger → List Signal → LedgerEntry
  | .explicit, signals => ⟨now, ruleIds, some now, (entries.priorSignals key).setAll signals now⟩
  | .promptHook, _ => ⟨now, ruleIds, (entries.get key).bind LedgerEntry.explicitAt,
      entries.priorSignals key⟩

theorem mem_touch {entry : LedgerEntry} :
    (other, entry) ∈ (entries.touch key ruleIds now trigger signals).items ↔
      other = key ∧ entry = entries.touched key ruleIds now trigger signals ∨
        other ≠ key ∧ (other, entry) ∈ entries.items := by
  cases trigger <;> exact Dict.mem_set

/-- A prompt-hook record leaves every date of a covered signal. -/
theorem coveredAt_touch_promptHook :
    (entries.touch key ruleIds now .promptHook signals).CoveredAt other signal ts ↔
      entries.CoveredAt other signal ts := by
  constructor
  · rintro ⟨entry, member, covered⟩
    obtain ⟨rfl, rfl⟩ | ⟨-, before⟩ := mem_touch.mp member
    · exact mem_priorSignals.mp covered
    · exact ⟨entry, before, covered⟩
  · rintro ⟨entry, member, covered⟩
    by_cases same : other = key
    · subst same
      have prior := mem_priorSignals.mpr ⟨entry, member, covered⟩
      exact ⟨_, mem_touch.mpr (.inl ⟨rfl, rfl⟩), prior⟩
    · exact ⟨entry, mem_touch.mpr (.inr ⟨same, member⟩), covered⟩

theorem consultedAt_touch_promptHook :
    (entries.touch key ruleIds now .promptHook signals).ConsultedAt other ts ↔
      entries.ConsultedAt other ts := by
  constructor
  · rintro ⟨entry, member, dated⟩
    obtain ⟨rfl, rfl⟩ | ⟨-, before⟩ := mem_touch.mp member
    · obtain ⟨prior, found, dated⟩ := Option.bind_eq_some_iff.mp dated
      exact ⟨prior, Dict.get_eq_some_iff.mp found, dated⟩
    · exact ⟨entry, before, dated⟩
  · rintro ⟨entry, member, dated⟩
    by_cases same : other = key
    · subst same
      refine ⟨_, mem_touch.mpr (.inl ⟨rfl, rfl⟩), ?_⟩
      exact Option.bind_eq_some_iff.mpr ⟨entry, Dict.get_eq_some_iff.mpr member, dated⟩
    · exact ⟨entry, mem_touch.mpr (.inr ⟨same, member⟩), dated⟩

/-- An explicit record dates the signals of its consult and no others. -/
theorem coveredAt_of_touch_explicit
    (covered : (entries.touch key ruleIds now .explicit signals).CoveredAt other signal ts) :
    other = key ∧ ts = now ∧ signal ∈ signals ∨ entries.CoveredAt other signal ts := by
  obtain ⟨entry, member, dated⟩ := covered
  obtain ⟨rfl, rfl⟩ | ⟨-, before⟩ := mem_touch.mp member
  · obtain ⟨listed, now_eq⟩ | ⟨-, prior⟩ := Dict.mem_setAll.mp dated
    · exact .inl ⟨rfl, now_eq, listed⟩
    · exact .inr (mem_priorSignals.mp prior)
  · exact .inr ⟨entry, before, dated⟩

theorem consultedAt_of_touch_explicit
    (consulted : (entries.touch key ruleIds now .explicit signals).ConsultedAt other ts) :
    other = key ∧ ts = now ∨ entries.ConsultedAt other ts := by
  obtain ⟨entry, member, dated⟩ := consulted
  obtain ⟨rfl, rfl⟩ | ⟨-, before⟩ := mem_touch.mp member
  · exact .inl ⟨rfl, (Option.some.inj dated).symm⟩
  · exact .inr ⟨entry, before, dated⟩

/-- The entry of the pair that consults is touched at that time. -/
theorem consultedAt_touched {entry : LedgerEntry}
    (member : (key, entry) ∈ (entries.touch key ruleIds now trigger signals).items) :
    entry.consultedAt = now := by
  obtain ⟨-, rfl⟩ | ⟨different, -⟩ := mem_touch.mp member
  · cases trigger <;> rfl
  · exact absurd rfl different

/-- An explicit record dates each of its signals. -/
theorem coveredAt_touch_of_mem (listed : signal ∈ signals) :
    (entries.touch key ruleIds now .explicit signals).CoveredAt key signal now :=
  ⟨_, mem_touch.mpr (.inl ⟨rfl, rfl⟩), Dict.mem_setAll.mpr (.inl ⟨listed, rfl⟩)⟩

/-- An explicit record leaves the dates of other signals. -/
theorem coveredAt_touch_of_notMem (absent : signal ∉ signals)
    (covered : entries.CoveredAt key signal ts) :
    (entries.touch key ruleIds now .explicit signals).CoveredAt key signal ts :=
  ⟨_, mem_touch.mpr (.inl ⟨rfl, rfl⟩),
    Dict.mem_setAll.mpr (.inr ⟨absent, mem_priorSignals.mpr covered⟩)⟩

/-- What an eviction keeps of the pair that consults. -/
theorem coveredAt_record (dated : (entries.touch key ruleIds now trigger signals).Dated now)
    (few : ((entries.touchedSince now).filter fun pair => pair ≠ key).length < config.maxEntries) :
    (entries.record config key ruleIds now trigger signals).CoveredAt key signal ts ↔
      (entries.touch key ruleIds now trigger signals).CoveredAt key signal ts ∧
        now - config.retentionSec ≤ ts := by
  rw [← coveredAt_prune dated]
  constructor
  · exact coveredAt_of_enforceCap
  · rintro ⟨entry, member, covered⟩
    refine ⟨entry, mem_enforceCap member (lt_of_le_of_lt ?_ few), covered⟩
    obtain ⟨whole, touched, -, rfl⟩ := mem_prune.mp member
    simp only [consultedAt_touched touched]
    apply List.Subperm.length_le
    apply List.subperm_of_subset (nodup_touchedSince.filter _)
    intro pair since
    obtain ⟨since, different⟩ := List.mem_filter.mp since
    obtain ⟨other, kept, late⟩ := mem_touchedSince.mp since
    obtain ⟨before, found, -, rfl⟩ := mem_prune.mp kept
    obtain ⟨same, -⟩ | ⟨-, earlier⟩ := mem_touch.mp found
    · exact absurd same (of_decide_eq_true different)
    · exact List.mem_filter.mpr ⟨mem_touchedSince.mpr ⟨before, earlier, late⟩, different⟩

/-- The fresh signals of the pair after an explicit consult. -/
theorem mem_freshSignals_record {later : Time}
    (dated : (entries.touch key ruleIds now .explicit signals).Dated now)
    (few : ((entries.touchedSince now).filter fun pair => pair ≠ key).length < config.maxEntries)
    (onward : now ≤ later) (within : later - now ≤ ttl) (kept : ttl ≤ config.retentionSec) :
    signal ∈ (entries.record config key ruleIds now .explicit signals).freshSignals key later ttl ↔
      signal ∈ signals ∨ signal ∈ entries.freshSignals key later ttl := by
  have retained : ∀ ts, later - ts ≤ ttl → now - config.retentionSec ≤ ts := by
    intro ts fresh
    have bound : now - ts ≤ config.retentionSec :=
      (Int.sub_le_sub_right onward ts).trans (fresh.trans kept)
    exact Int.sub_le_of_sub_le bound
  simp only [mem_freshSignals, coveredAt_record dated few]
  constructor
  · rintro ⟨ts, ⟨touched, -⟩, fresh⟩
    obtain ⟨-, -, listed⟩ | before := coveredAt_of_touch_explicit touched
    · exact .inl listed
    · exact .inr ⟨ts, before, fresh⟩
  · intro either
    by_cases listed : signal ∈ signals
    · exact ⟨now, ⟨coveredAt_touch_of_mem listed, retained now within⟩, within⟩
    · obtain ⟨ts, before, fresh⟩ := either.resolve_left listed
      exact ⟨ts, ⟨coveredAt_touch_of_notMem listed before, retained ts fresh⟩, fresh⟩

end Touch

end LedgerEntries

end DataOlympus
