import Mathlib.Data.List.Induction
import Mathlib.Logic.Relation

/-!
# Runs of labelled transitions

A labelled transition relation, its finite runs, and the rule that carries an
invariant from single steps to whole runs.
-/

namespace DataOlympus.Transition

universe u v

/-- A labelled transition relation. -/
abbrev System (σ : Type u) (ι : Type v) : Type (max u v) :=
  σ → ι → σ → Prop

variable {σ : Type u} {ι : Type v}

/-- `target` is reached from `source` along the listed labels. -/
inductive Run (step : System σ ι) (source : σ) : List ι → σ → Prop
  | refl : Run step source [] source
  | tail {labels : List ι} {label : ι} {middle target : σ} :
      Run step source labels middle → step middle label target →
        Run step source (labels ++ [label]) target

/-- The steps of a system that meet a condition. -/
def System.restrict (step : System σ ι) (meets : σ → ι → Prop) : System σ ι :=
  fun source label target => meets source label ∧ step source label target

/-- A property that every step preserves. -/
def System.Preserves (step : System σ ι) (invariant : σ → Prop) : Prop :=
  ∀ source label target, step source label target → invariant source → invariant target

namespace Run

variable {step : System σ ι}

/-- A run of one step. -/
theorem single {source target : σ} {label : ι} (taken : step source label target) :
    Run step source [label] target :=
  Run.tail Run.refl taken

/-- Runs compose. -/
theorem trans {source middle target : σ} {labels further : List ι}
    (first : Run step source labels middle) (second : Run step middle further target) :
    Run step source (labels ++ further) target := by
  induction second with
  | refl => simpa using first
  | tail _ last ih =>
      rw [← List.append_assoc]
      exact Run.tail ih last

/-- A step before a run. -/
theorem head {source middle target : σ} {label : ι} {labels : List ι}
    (first : step source label middle) (rest : Run step middle labels target) :
    Run step source (label :: labels) target :=
  (single first).trans rest

/-- The last step of a run. -/
theorem exists_last {source target : σ} {labels : List ι} {label : ι}
    (run : Run step source (labels ++ [label]) target) :
    ∃ middle, Run step source labels middle ∧ step middle label target := by
  generalize whole : labels ++ [label] = all at run
  cases run with
  | refl => simp at whole
  | tail before last =>
      rcases List.append_inj' whole rfl with ⟨rfl, same⟩
      cases same
      exact ⟨_, before, last⟩

/-- A run along two lists of labels passes through a state between them. -/
theorem exists_between {source target : σ} {labels further : List ι}
    (run : Run step source (labels ++ further) target) :
    ∃ middle, Run step source labels middle ∧ Run step middle further target := by
  induction further using List.reverseRecOn generalizing target with
  | nil => exact ⟨target, List.append_nil labels ▸ run, Run.refl⟩
  | append_singleton others other ih =>
      rw [← List.append_assoc] at run
      rcases run.exists_last with ⟨before, first, last⟩
      rcases ih first with ⟨middle, upTo, from'⟩
      exact ⟨middle, upTo, Run.tail from' last⟩

/-- What every step preserves, every run preserves. -/
theorem invariant {invariant : σ → Prop} (preserved : step.Preserves invariant)
    {source target : σ} {labels : List ι} (run : Run step source labels target)
    (initially : invariant source) : invariant target := by
  induction run with
  | refl => exact initially
  | tail _ last ih => exact preserved _ _ _ last ih

/-- What every step along an allowed label preserves, every run along such labels
preserves. -/
theorem invariant_along {invariant : σ → Prop} {allowed : ι → Prop}
    (preserved : ∀ source label target, allowed label → step source label target →
      invariant source → invariant target)
    {source target : σ} {labels : List ι} (run : Run step source labels target)
    (along : ∀ label ∈ labels, allowed label) (initially : invariant source) :
    invariant target := by
  induction run with
  | refl => exact initially
  | tail _ last ih =>
      have before := ih fun label member => along label (List.mem_append_left _ member)
      exact preserved _ _ _ (along _ (List.mem_append_right _ List.mem_cons_self)) last before

/-- A run of a restricted system is a run of the system. -/
theorem of_restrict {meets : σ → ι → Prop} {source target : σ} {labels : List ι}
    (run : Run (step.restrict meets) source labels target) :
    Run step source labels target := by
  induction run with
  | refl => exact Run.refl
  | tail _ last ih => exact Run.tail ih last.2

/-- A run that meets a condition meets a weaker one. -/
theorem restrict_mono {meets weaker : σ → ι → Prop} {source target : σ} {labels : List ι}
    (run : Run (step.restrict meets) source labels target)
    (weakens : ∀ source label, meets source label → weaker source label) :
    Run (step.restrict weaker) source labels target := by
  induction run with
  | refl => exact Run.refl
  | tail _ last ih => exact Run.tail ih ⟨weakens _ _ last.1, last.2⟩

/-- When a step along an allowed label keeps a property exactly if it meets a condition,
and no step brings the property back, the property holds at the end of exactly those runs
along allowed labels whose steps all meet the condition. -/
theorem iff_restrict_of_labels {invariant good : σ → Prop} {meets : σ → ι → Prop}
    {allowed : ι → Prop} (preserved : step.Preserves invariant)
    (exact : ∀ source label target, allowed label → step source label target →
      invariant source → good source → (good target ↔ meets source label))
    (backward : ∀ source label target, step source label target → good target → good source)
    {source target : σ} {labels : List ι} (run : Run step source labels target)
    (initially : invariant source) (start : good source)
    (along : ∀ label ∈ labels, allowed label) :
    good target ↔ Run (step.restrict meets) source labels target := by
  constructor
  · intro goodTarget
    induction run with
    | refl => exact Run.refl
    | tail before last ih =>
        have goodMiddle := backward _ _ _ last goodTarget
        have kept := Run.invariant preserved before initially
        have now := along _ (List.mem_append_right _ List.mem_cons_self)
        have met := (exact _ _ _ now last kept goodMiddle).mp goodTarget
        have earlier := ih (fun label member => along label (List.mem_append_left _ member))
          goodMiddle
        exact Run.tail earlier ⟨met, last⟩
  · intro restricted
    clear run
    induction restricted with
    | refl => exact start
    | tail before last ih =>
        have goodMiddle := ih fun label member =>
          along label (List.mem_append_left _ member)
        have kept := Run.invariant preserved before.of_restrict initially
        have now := along _ (List.mem_append_right _ List.mem_cons_self)
        exact (exact _ _ _ now last.2 kept goodMiddle).mpr last.1

/-- When a step keeps a property exactly if it meets a condition, and no step brings
the property back, the property holds at the end of exactly those runs whose steps all
meet the condition. -/
theorem iff_restrict {invariant good : σ → Prop} {meets : σ → ι → Prop}
    (preserved : step.Preserves invariant)
    (exact : ∀ source label target, step source label target → invariant source →
      good source → (good target ↔ meets source label))
    (backward : ∀ source label target, step source label target → good target → good source)
    {source target : σ} {labels : List ι} (run : Run step source labels target)
    (initially : invariant source) (start : good source) :
    good target ↔ Run (step.restrict meets) source labels target := by
  apply iff_restrict_of_labels preserved _ backward run initially start
  · intro label _
    exact trivial
  · intro before label after _
    exact exact before label after

end Run

end DataOlympus.Transition
