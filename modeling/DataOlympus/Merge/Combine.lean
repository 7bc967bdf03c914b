import DataOlympus.Merge.ThreeWay

/-!
# What merges make

A merge that settles every value that one side left alone, the merge of lists element by
element, and the values that merges make of given ones.
-/

namespace DataOlympus.ThreeWay

universe u v

variable {α : Type u} {β : Type v}

/-- The merge that asks `both` only about a value that both sides changed. -/
def Merge.settle [DecidableEq β] (both : (base ours theirs : β) → Option β) : Merge β where
  merge base ours theirs :=
    if theirs = base then some ours
    else if ours = base then some theirs
    else both base ours theirs
  theirs_unchanged base ours := if_pos rfl
  ours_unchanged base theirs := by
    by_cases same : theirs = base
    · rw [if_pos same, same]
    · rw [if_neg same, if_pos rfl]

/-- The merge of equally long lists, one element after another. -/
def Merge.zip (merge : Merge α) : (base ours theirs : List α) → Option (List α)
  | [], [], [] => some []
  | base :: bases, our :: ours, their :: theirs =>
      (merge.merge base our their).bind fun first =>
        (zip merge bases ours theirs).map fun rest => first :: rest
  | _, _, _ => none

/-- The values that merges make of those of a source.  A value that one side left alone is
no new value. -/
inductive Merge.Generated (merge : Merge β) (source : β → Prop) : β → Prop
  | source {value : β} (given : source value) : Generated merge source value
  | merged {base ours theirs value : β} (fromBase : Generated merge source base)
      (fromOurs : Generated merge source ours) (fromTheirs : Generated merge source theirs)
      (oursChanged : ours ≠ base) (theirsChanged : theirs ≠ base)
      (done : merge.merge base ours theirs = some value) : Generated merge source value

variable {merge : Merge β} {source further : β → Prop}

/-- A source that grows generates no less. -/
theorem Merge.Generated.mono {value : β} (generated : merge.Generated source value)
    (grows : ∀ value, source value → further value) : merge.Generated further value := by
  induction generated with
  | source given => exact .source (grows _ given)
  | merged _ _ _ oursChanged theirsChanged done fromBase fromOurs fromTheirs =>
      exact .merged fromBase fromOurs fromTheirs oursChanged theirsChanged done

/-- Every merge of generated values is generated. -/
theorem Merge.Generated.of_merge {base ours theirs value : β}
    (fromBase : merge.Generated source base) (fromOurs : merge.Generated source ours)
    (fromTheirs : merge.Generated source theirs)
    (done : merge.merge base ours theirs = some value) : merge.Generated source value := by
  by_cases oursSame : ours = base
  · subst oursSame
    rw [merge.ours_unchanged] at done
    cases done
    exact fromTheirs
  · by_cases theirsSame : theirs = base
    · subst theirsSame
      rw [merge.theirs_unchanged] at done
      cases done
      exact fromOurs
    · exact .merged fromBase fromOurs fromTheirs oursSame theirsSame done

end DataOlympus.ThreeWay
