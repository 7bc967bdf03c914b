import Mathlib.Algebra.Order.Group.Defs
import Mathlib.Data.List.Induction

/-!
# Sliding windows

Points of time that are admitted one after another, each only if few enough of the earlier ones
lie in the window that ends at it.  Then every window of that width holds few enough, wherever
it ends.
-/

namespace DataOlympus.Select

universe u

variable {τ : Type u} [LinearOrder τ]

/-- The times behind a cutoff. -/
def live (cutoff : τ) (times : List τ) : List τ :=
  times.filter (cutoff < ·)

@[simp]
theorem live_append (cutoff : τ) (first second : List τ) :
    live cutoff (first ++ second) = live cutoff first ++ live cutoff second :=
  List.filter_append first second

/-- An earlier cutoff does not matter to a later one. -/
theorem live_live {earlier later : τ} (order : earlier ≤ later) (times : List τ) :
    live later (live earlier times) = live later times := by
  unfold live
  rw [List.filter_filter]
  apply List.filter_congr
  intro time _
  rw [Bool.and_eq_left_iff_imp, decide_eq_true_eq, decide_eq_true_eq]
  exact order.trans_lt

/-- The kept times stand for the admitted ones, for every cutoff from this one on. -/
def Follows (cutoff : τ) (kept admitted : List τ) : Prop :=
  ∀ later, cutoff ≤ later → live later kept = live later admitted

section Follows

variable {cutoff later : τ} {kept admitted : List τ}

theorem Follows.refl (cutoff : τ) (times : List τ) : Follows cutoff times times :=
  fun _ _ => rfl

theorem Follows.mono (follows : Follows cutoff kept admitted) (order : cutoff ≤ later) :
    Follows later kept admitted := by
  intro last behind
  exact follows last (order.trans behind)

/-- Times before the cutoff may be dropped. -/
theorem Follows.prune (follows : Follows cutoff kept admitted) :
    Follows cutoff (live cutoff kept) admitted := by
  intro last behind
  rw [live_live behind, follows last behind]

theorem Follows.concat (follows : Follows cutoff kept admitted) (time : τ) :
    Follows cutoff (kept ++ [time]) (admitted ++ [time]) := by
  intro last behind
  rw [live_append, live_append, follows last behind]

end Follows

variable [AddCommGroup τ]

/-- The window of this width that ends here holds the time. -/
def inWindowTo (width last time : τ) : Bool :=
  last - width < time && time ≤ last

/-- Every window of this width holds at most so many of the times. -/
def Within (width : τ) (bound : Nat) (times : List τ) : Prop :=
  ∀ last, times.countP (inWindowTo width last) ≤ bound

theorem within_nil (width : τ) (bound : Nat) : Within width bound [] :=
  fun _ => Nat.zero_le bound

/-- A time is admitted if few enough of the earlier ones lie in the window that ends at it. -/
theorem Within.concat [IsOrderedAddMonoid τ] {width : τ} {bound : Nat} {times : List τ}
    {time : τ} (within : Within width bound times)
    (free : (live (time - width) times).length < bound) :
    Within width bound (times ++ [time]) := by
  intro last
  rw [List.countP_append, List.countP_singleton]
  split
  · rename_i here
    rw [inWindowTo, Bool.and_eq_true, decide_eq_true_eq, decide_eq_true_eq] at here
    have earlier : times.countP (inWindowTo width last) ≤
        (live (time - width) times).length := by
      rw [live, ← List.countP_eq_length_filter]
      apply List.countP_mono_left
      intro other _ inside
      rw [inWindowTo, Bool.and_eq_true, decide_eq_true_eq] at inside
      rw [decide_eq_true_eq]
      exact (sub_le_sub_right here.2 width).trans_lt inside.1
    omega
  · exact within last

/-- The window that ends at a time none of these is after. -/
theorem countP_inWindowTo {width time : τ} {times : List τ}
    (before : ∀ earlier ∈ times, earlier ≤ time) :
    times.countP (inWindowTo width time) = (live (time - width) times).length := by
  rw [live, ← List.countP_eq_length_filter]
  apply List.countP_congr
  intro earlier member
  simp [inWindowTo, before earlier member]

end DataOlympus.Select
