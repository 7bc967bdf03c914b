import DataOlympus.Transition.Run
import Mathlib.Data.List.Infix

/-!
# Interrupted plans

An operation reads the state once and plans a list of atomic actions.  A crash, or an
exception, may stop it after any number of them.
-/

namespace DataOlympus.Transition

universe u v w

variable {σ : Type u} {ι : Type v} {α : Type w}

/-- The state after the actions, in order. -/
def execute (apply : σ → α → σ) (state : σ) (actions : List α) : σ :=
  actions.foldl apply state

/-- What an operation got done. -/
structure Attempt (ι : Type v) (α : Type w) where
  operation : ι
  performed : List α

/-- Each operation performs some first part of its plan. -/
def System.interrupted (apply : σ → α → σ) (plan : σ → ι → List α) :
    System σ (Attempt ι α) :=
  fun source attempt target =>
    attempt.performed <+: plan source attempt.operation ∧
      target = execute apply source attempt.performed

/-- A property that holds after each action of a plan. -/
def Keeps (apply : σ → α → σ) (property : σ → Prop) : σ → List α → Prop
  | _, [] => True
  | state, action :: rest =>
      property (apply state action) ∧ Keeps apply property (apply state action) rest

variable {apply : σ → α → σ} {property : σ → Prop}

@[simp]
theorem execute_nil (state : σ) : execute apply state [] = state :=
  rfl

@[simp]
theorem execute_cons (state : σ) (action : α) (rest : List α) :
    execute apply state (action :: rest) = execute apply (apply state action) rest :=
  rfl

theorem execute_append (state : σ) (first second : List α) :
    execute apply state (first ++ second) =
      execute apply (execute apply state first) second :=
  List.foldl_append

@[simp]
theorem keeps_nil (state : σ) : Keeps apply property state [] :=
  trivial

@[simp]
theorem keeps_cons {state : σ} {action : α} {rest : List α} :
    Keeps apply property state (action :: rest) ↔
      property (apply state action) ∧ Keeps apply property (apply state action) rest :=
  Iff.rfl

/-- What every action preserves, a list of actions preserves. -/
theorem execute_preserves (preserved : ∀ state action, property state →
    property (apply state action)) {state : σ} (initially : property state)
    (actions : List α) : property (execute apply state actions) := by
  induction actions generalizing state with
  | nil => exact initially
  | cons action rest ih => exact ih (preserved state action initially)

/-- What every action of a list preserves, each first part of the list preserves. -/
theorem execute_take_preserves (kept : σ → Prop) {actions : List α}
    (preserved : ∀ action ∈ actions, ∀ state, kept state → kept (apply state action))
    {state : σ} (initially : kept state) (count : Nat) :
    kept (execute apply state (actions.take count)) := by
  induction actions generalizing state count with
  | nil =>
      rw [List.take_nil]
      exact initially
  | cons action rest ih =>
      cases count with
      | zero => exact initially
      | succ count =>
          apply ih
          · intro other later
            exact preserved other (List.mem_cons_of_mem _ later)
          · exact preserved action List.mem_cons_self state initially

/-- Where each action of a plan keeps the property, an interrupted plan keeps it. -/
theorem Keeps.interrupted {state : σ} {plan performed : List α}
    (keeps : Keeps apply property state plan) (initially : property state)
    (cut : performed <+: plan) : property (execute apply state performed) := by
  induction performed generalizing state plan with
  | nil => exact initially
  | cons action rest ih =>
      rcases cut with ⟨remaining, rfl⟩
      rw [List.cons_append, keeps_cons] at keeps
      exact ih keeps.2 keeps.1 ⟨remaining, rfl⟩

/-- A property that the actions of every plan keep, at their places in it, is kept by
all interrupted operations. -/
theorem System.interrupted_preserves {plan : σ → ι → List α}
    {meets : σ → Attempt ι α → Prop}
    (keeps : ∀ source attempt, meets source attempt → property source →
      Keeps apply property source (plan source attempt.operation)) :
    ((System.interrupted apply plan).restrict meets).Preserves property := by
  rintro source attempt target ⟨met, cut, rfl⟩ initially
  exact (keeps source attempt met initially).interrupted initially cut

end DataOlympus.Transition
