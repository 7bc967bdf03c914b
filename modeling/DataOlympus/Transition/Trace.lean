import Mathlib.Data.List.Induction

/-!
# Traces that avoid bad events

An event of a trace is bad or not by what came before it.
-/

namespace DataOlympus.Transition

universe u

variable {ε : Type u} {bad : List ε → ε → Prop} {trace : List ε}

/-- No event of the trace is bad after those before it. -/
def Avoids (bad : List ε → ε → Prop) (trace : List ε) : Prop :=
  ∀ before event after, trace = before ++ event :: after → ¬bad before event

theorem avoids_nil : Avoids bad ([] : List ε) := by
  intro before event after split
  cases before <;> cases split

/-- A trace that goes on avoids no less. -/
theorem Avoids.of_append {further : List ε} (avoids : Avoids bad (trace ++ further)) :
    Avoids bad trace := by
  intro before event after split
  apply avoids before event (after ++ further)
  rw [split, List.append_assoc, List.cons_append]

theorem avoids_concat {event : ε} :
    Avoids bad (trace ++ [event]) ↔ Avoids bad trace ∧ ¬bad trace event := by
  constructor
  · intro avoids
    exact ⟨avoids.of_append, avoids trace event [] rfl⟩
  · rintro ⟨avoids, good⟩ before other after split
    induction after using List.reverseRecOn with
    | nil =>
        obtain ⟨same, last⟩ := List.append_inj' split rfl
        cases last
        rwa [← same]
    | append_singleton after final _ =>
        apply avoids before other after
        rw [← List.cons_append, ← List.append_assoc] at split
        exact (List.append_inj' split rfl).1

/-- Events that are bad or not whatever came before them among themselves. -/
theorem avoids_append {events : List ε}
    (stable : ∀ earlier event, earlier <+: events → event ∈ events →
      (bad (trace ++ earlier) event ↔ bad trace event)) :
    Avoids bad (trace ++ events) ↔ Avoids bad trace ∧ ∀ event ∈ events, ¬bad trace event := by
  induction events using List.reverseRecOn with
  | nil => simp
  | append_singleton events event ih =>
      have before : Avoids bad (trace ++ events) ↔
          Avoids bad trace ∧ ∀ event ∈ events, ¬bad trace event := by
        apply ih
        intro earlier other head member
        exact stable earlier other (head.trans (List.prefix_append _ _))
          (List.mem_append_left _ member)
      have last := stable events event (List.prefix_append _ _)
        (List.mem_append_right _ List.mem_cons_self)
      rw [← List.append_assoc, avoids_concat, before, last, List.forall_mem_append,
        List.forall_mem_singleton, and_assoc]

end DataOlympus.Transition
