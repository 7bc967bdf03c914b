import Mathlib.Data.List.Perm.Subperm
import Mathlib.Data.List.Nodup
import Mathlib.Data.List.Range
import Mathlib.Logic.Relation

/-!
# Commit graphs

Commits are numbered so that parents come before their children.  A range `start..head`
holds the commits that `head` reaches and `start` does not.
-/

namespace DataOlympus.Git

structure CommitGraph where
  parents : List (List Nat)
  older : ∀ (child : Nat) (earlier : List Nat), parents[child]? = some earlier →
    ∀ parent ∈ earlier, parent < child

namespace CommitGraph

variable (graph : CommitGraph)

def parentsOf (child : Nat) : List Nat :=
  graph.parents[child]?.getD []

/-- One commit reaches another within so many steps. -/
def reachesWithin : Nat → Nat → Nat → Bool
  | 0, head, commit => head = commit
  | steps + 1, head, commit =>
      head = commit || (graph.parentsOf head).any fun parent => reachesWithin steps parent commit

/-- `git merge-base --is-ancestor commit head`. -/
def reaches (head commit : Nat) : Bool :=
  graph.reachesWithin head head commit

/-- `git rev-list start..head`, the latest commit first. -/
def revList (start head : Nat) : List Nat :=
  (List.range graph.parents.length).reverse.filter fun commit =>
    graph.reaches head commit && !graph.reaches start commit

/-- The ancestry of commits. -/
def Reaches : Nat → Nat → Prop :=
  Relation.ReflTransGen fun child parent => parent ∈ graph.parentsOf child

variable {graph} {head commit start child parent steps : Nat}

theorem lt_of_mem_parentsOf (member : parent ∈ graph.parentsOf child) : parent < child := by
  unfold parentsOf at member
  cases known : graph.parents[child]? with
  | none =>
      rw [known] at member
      exact absurd member List.not_mem_nil
  | some earlier =>
      rw [known] at member
      exact graph.older child earlier known parent member

theorem le_of_reaches (path : graph.Reaches head commit) : commit ≤ head := by
  induction path with
  | refl => exact le_rfl
  | tail _ last ih => exact (lt_of_mem_parentsOf last).le.trans ih

theorem reachesWithin_iff (enough : head ≤ steps) :
    graph.reachesWithin steps head commit = true ↔ graph.Reaches head commit := by
  induction steps generalizing head with
  | zero =>
      obtain rfl := Nat.le_zero.mp enough
      rw [reachesWithin, decide_eq_true_eq]
      constructor
      · rintro rfl
        exact .refl
      · intro path
        exact (Nat.le_zero.mp (le_of_reaches path)).symm
  | succ steps ih =>
      rw [reachesWithin, Bool.or_eq_true, decide_eq_true_eq, List.any_eq_true, Reaches,
        Relation.ReflTransGen.cases_head_iff]
      apply or_congr_right
      apply exists_congr
      intro parent
      apply and_congr_right
      intro member
      have earlier := lt_of_mem_parentsOf member
      exact ih (by omega)

theorem reaches_iff : graph.reaches head commit = true ↔ graph.Reaches head commit :=
  reachesWithin_iff le_rfl

theorem mem_revList : commit ∈ graph.revList start head ↔
    commit < graph.parents.length ∧ graph.Reaches head commit ∧ ¬graph.Reaches start commit := by
  rw [revList, List.mem_filter, List.mem_reverse, List.mem_range, Bool.and_eq_true, reaches_iff,
    Bool.not_eq_true', ← Bool.not_eq_true, reaches_iff]

/-! ## Extension -/

variable {other : CommitGraph}

/-- Further commits leave the ancestry of the earlier ones. -/
theorem reaches_congr (grown : graph.parents <+: other.parents)
    (inside : head < graph.parents.length) :
    other.Reaches head commit ↔ graph.Reaches head commit := by
  have same : ∀ child < graph.parents.length, other.parentsOf child = graph.parentsOf child := by
    intro child known
    obtain ⟨more, glued⟩ := grown
    rw [parentsOf, parentsOf, ← glued, List.getElem?_append_left known]
  constructor
  · intro path
    have within : graph.Reaches head commit ∧ commit < graph.parents.length := by
      induction path with
      | refl => exact ⟨.refl, inside⟩
      | tail _ last ih =>
          rw [same _ ih.2] at last
          exact ⟨ih.1.tail last, (lt_of_mem_parentsOf last).trans ih.2⟩
    exact within.1
  · intro path
    have within : other.Reaches head commit ∧ commit < graph.parents.length := by
      induction path with
      | refl => exact ⟨.refl, inside⟩
      | tail _ last ih =>
          rw [← same _ ih.2] at last
          exact ⟨ih.1.tail last, (lt_of_mem_parentsOf last).trans ih.2⟩
    exact within.1

variable {later : Nat}

/-- The range of a head lies in the range of each head that reaches it. -/
theorem revList_subset (grown : graph.parents <+: other.parents)
    (start_known : start < graph.parents.length) (head_known : head < graph.parents.length)
    (ahead : other.Reaches later head) : graph.revList start head ⊆ other.revList start later := by
  intro commit member
  obtain ⟨known, path, fresh⟩ := mem_revList.mp member
  apply mem_revList.mpr
  refine ⟨known.trans_le grown.length_le, ?_, ?_⟩
  · exact ahead.trans ((reaches_congr grown head_known).mpr path)
  · rwa [reaches_congr grown start_known]

/-- The range grows with its head. -/
theorem length_revList_lt (grown : graph.parents <+: other.parents)
    (start_known : start < graph.parents.length) (head_known : head < graph.parents.length)
    (later_known : later < other.parents.length) (ahead : other.Reaches later head)
    (further : later ≠ head) (based : graph.Reaches head start) :
    (graph.revList start head).length < (other.revList start later).length := by
  have nodup : (graph.revList start head).Nodup :=
    (List.nodup_reverse.mpr List.nodup_range).filter _
  have behind : head < later := lt_of_le_of_ne (le_of_reaches ahead) further.symm
  have new : later ∈ other.revList start later := by
    apply mem_revList.mpr
    refine ⟨later_known, .refl, ?_⟩
    intro path
    have := le_of_reaches path
    have := le_of_reaches based
    omega
  have old : later ∉ graph.revList start head := by
    intro member
    have := le_of_reaches (mem_revList.mp member).2.1
    omega
  have within : later :: graph.revList start head ⊆ other.revList start later :=
    List.cons_subset.mpr ⟨new, revList_subset grown start_known head_known ahead⟩
  exact (List.subperm_of_subset (List.nodup_cons.mpr ⟨old, nodup⟩) within).length_le

end CommitGraph

end DataOlympus.Git
