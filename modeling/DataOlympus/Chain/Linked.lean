import Mathlib.Data.List.Induction
import Mathlib.Data.List.Nodup

/-!
# Hash chains

A list of records in which each record names the hash of the one before it.  Where no
hash occurs twice, every other chain of the same records is a first part of the list.
-/

namespace DataOlympus.Chain

universe u v

variable {ε : Type u} {δ : Type v} {previous hash : ε → δ}

/-- The first record names `start`, every other one the hash of its predecessor. -/
inductive Linked (previous hash : ε → δ) : δ → List ε → Prop
  | nil (start : δ) : Linked previous hash start []
  | cons {start : δ} {record : ε} {rest : List ε} (names : previous record = start)
      (further : Linked previous hash (hash record) rest) :
      Linked previous hash start (record :: rest)

/-- The hash that the next record has to name. -/
def lastHash (hash : ε → δ) (start : δ) (records : List ε) : δ :=
  records.foldl (fun _ record => hash record) start

@[simp]
theorem lastHash_concat (start : δ) (records : List ε) (record : ε) :
    lastHash hash start (records ++ [record]) = hash record := by
  simp [lastHash]

/-- A chain grows by a record that names its last hash. -/
theorem Linked.concat {start : δ} {records : List ε} (linked : Linked previous hash start records)
    {record : ε} (names : previous record = lastHash hash start records) :
    Linked previous hash start (records ++ [record]) := by
  induction linked with
  | nil start => exact .cons names (.nil _)
  | cons first _ ih => exact .cons first (ih names)

/-- A chain ends with a record that names the last hash before it. -/
theorem Linked.of_concat {start : δ} {records : List ε} {record : ε}
    (linked : Linked previous hash start (records ++ [record])) :
    Linked previous hash start records ∧ previous record = lastHash hash start records := by
  induction records generalizing start with
  | nil =>
      cases linked with
      | cons names _ => exact ⟨.nil start, names⟩
  | cons first rest ih =>
      cases linked with
      | cons names further =>
          obtain ⟨before, last⟩ := ih further
          exact ⟨.cons names before, last⟩

/-- A first part of a chain is a chain. -/
theorem Linked.take {start : δ} {records : List ε} (linked : Linked previous hash start records)
    (count : Nat) : Linked previous hash start (records.take count) := by
  induction linked generalizing count with
  | nil start =>
      rw [List.take_nil]
      exact .nil start
  | cons first _ ih =>
      cases count with
      | zero => exact .nil _
      | succ count => exact .cons first (ih count)

/-- A record names the start or the hash of a record of the chain. -/
theorem Linked.previous_mem {start : δ} {records : List ε}
    (linked : Linked previous hash start records) {record : ε} (member : record ∈ records) :
    previous record ∈ start :: records.map hash := by
  induction linked with
  | nil start => cases member
  | @cons start first rest names _ ih =>
      obtain same | later := List.mem_cons.mp member
      · subst record
        rw [names]
        exact List.mem_cons_self
      · exact List.mem_cons_of_mem _ (ih later)

theorem lastHash_mem (start : δ) (records : List ε) :
    lastHash hash start records ∈ start :: records.map hash := by
  induction records generalizing start with
  | nil => exact List.mem_singleton.mpr rfl
  | cons first rest ih => exact List.mem_cons_of_mem _ (ih (hash first))

/-- No record names the last hash. -/
theorem Linked.previous_ne_lastHash {start : δ} {records : List ε}
    (linked : Linked previous hash start records) (once : (start :: records.map hash).Nodup)
    {record : ε} (member : record ∈ records) :
    previous record ≠ lastHash hash start records := by
  induction linked with
  | nil start => cases member
  | @cons start first rest names _ ih =>
      obtain ⟨fresh, onceRest⟩ := List.nodup_cons.mp once
      obtain same | later := List.mem_cons.mp member
      · subst record
        intro last
        apply fresh
        rw [← names, last]
        exact lastHash_mem (hash first) rest
      · exact ih onceRest later

/-- Where the hash determines what a record names, and the start is no hash, no hash
occurs twice. -/
theorem Linked.nodup {start : δ} {records : List ε}
    (linked : Linked previous hash start records)
    (determined : ∀ first ∈ records, ∀ second ∈ records, hash first = hash second →
      previous first = previous second)
    (genesis : start ∉ records.map hash) : (start :: records.map hash).Nodup := by
  induction records using List.reverseRecOn with
  | nil => exact List.nodup_singleton start
  | append_singleton records record ih =>
      obtain ⟨before, names⟩ := linked.of_concat
      rw [List.map_append, List.mem_append, not_or] at genesis
      have once := ih before
        (fun first firstIn second secondIn => determined first (List.mem_append_left _ firstIn)
          second (List.mem_append_left _ secondIn)) genesis.1
      rw [List.map_append, ← List.cons_append]
      apply once.append (List.nodup_singleton _)
      intro repeated earlier last
      cases List.mem_singleton.mp last
      obtain here | there := List.mem_cons.mp earlier
      · exact genesis.2 (List.mem_singleton.mpr here.symm)
      · obtain ⟨other, otherIn, same⟩ := List.mem_map.mp there
        apply before.previous_ne_lastHash once otherIn
        rw [← names]
        exact determined other (List.mem_append_left _ otherIn) record
          (List.mem_append_right _ List.mem_cons_self) same

/-- Records that stand for records of a list are linked like those. -/
theorem Linked.exists_forall₂ {same : ε → ε → Prop} {start : δ} {records kept : List ε}
    (linked : Linked previous hash start kept)
    (stands : ∀ record ∈ kept, ∃ original ∈ records, same original record ∧
      previous original = previous record ∧ hash original = hash record) :
    ∃ lineage, (∀ original ∈ lineage, original ∈ records) ∧
      Linked previous hash start lineage ∧ List.Forall₂ same lineage kept := by
  induction linked with
  | nil start => exact ⟨[], List.forall_mem_nil _, .nil start, .nil⟩
  | @cons start record rest names further ih =>
      obtain ⟨original, originalIn, isSame, previousEq, hashEq⟩ :=
        stands record List.mem_cons_self
      obtain ⟨lineage, among, lineageLinked, later⟩ :=
        ih fun other member => stands other (List.mem_cons_of_mem _ member)
      refine ⟨original :: lineage, List.forall_mem_cons.mpr ⟨originalIn, among⟩, ?_,
        .cons isSame later⟩
      rw [← hashEq] at lineageLinked
      exact .cons (previousEq.trans names) lineageLinked

/-- A chain of records that stand for records of another chain is a first part of it. -/
theorem Linked.forall₂_take {same : ε → ε → Prop} {start : δ} {records kept : List ε}
    (linked : Linked previous hash start records) (once : (start :: records.map hash).Nodup)
    (keptLinked : Linked previous hash start kept)
    (stands : ∀ record ∈ kept, ∃ original ∈ records, same original record ∧
      previous original = previous record ∧ hash original = hash record) :
    ∃ count, List.Forall₂ same (records.take count) kept := by
  induction linked generalizing kept with
  | nil start =>
      cases keptLinked with
      | nil _ => exact ⟨0, .nil⟩
      | cons names further =>
          obtain ⟨original, impossible, -⟩ := stands _ List.mem_cons_self
          cases impossible
  | @cons start first rest names further ih =>
      obtain ⟨fresh, onceRest⟩ := List.nodup_cons.mp once
      cases keptLinked with
      | nil _ => exact ⟨0, .nil⟩
      | @cons _ record later keptNames keptFurther =>
          -- Only the first record names the start.
          have standsHere : same first record ∧ hash first = hash record := by
            obtain ⟨original, originalIn, isSame, previousEq, hashEq⟩ :=
              stands record List.mem_cons_self
            obtain here | there := List.mem_cons.mp originalIn
            · subst original
              exact ⟨isSame, hashEq⟩
            · have named := further.previous_mem there
              rw [previousEq, keptNames] at named
              exact absurd named fresh
          rw [← standsHere.2] at keptFurther
          have standsLater : ∀ after ∈ later, ∃ original ∈ rest, same original after ∧
              previous original = previous after ∧ hash original = hash after := by
            intro after afterIn
            obtain ⟨original, originalIn, isSame, previousEq, hashEq⟩ :=
              stands after (List.mem_cons_of_mem _ afterIn)
            obtain here | there := List.mem_cons.mp originalIn
            · subst original
              exfalso
              apply fresh
              have named := keptFurther.previous_mem afterIn
              rw [← previousEq, names] at named
              obtain startHash | fromLater := List.mem_cons.mp named
              · rw [startHash]
                exact List.mem_cons_self
              · obtain ⟨other, otherIn, otherHash⟩ := List.mem_map.mp fromLater
                obtain ⟨source, sourceIn, -, -, sourceHash⟩ :=
                  stands other (List.mem_cons_of_mem _ otherIn)
                rw [← otherHash, ← sourceHash]
                exact List.mem_map_of_mem sourceIn
            · exact ⟨original, there, isSame, previousEq, hashEq⟩
          obtain ⟨count, matched⟩ := ih onceRest keptFurther standsLater
          exact ⟨count + 1, .cons standsHere.1 matched⟩

end DataOlympus.Chain
