import DataOlympus.Text.Marks

/-!
# Managed blocks of a text

A managed block of some lines begins at a line that is the begin mark and ends at the next line
that is the end mark.  What stands outside of the blocks comes in stretches, and a text gives
these back when it has their lines in order, with empty lines only where a block was or is.
-/

namespace DataOlympus.Lines

variable {begins ends line : Text} {lines first second middle : List Text}

/-! ## Stretches -/

/-- A line is put before the first stretch. -/
def consStretch (line : Text) : List (List Text) → List (List Text)
  | [] => [[line]]
  | first :: more => (line :: first) :: more

/-- The stretches of lines outside of the managed blocks, of which one may be open already. -/
def stretches (begins ends : Text) : Bool → List Text → List (List Text)
  | _, [] => [[]]
  | false, line :: rest =>
      if line = begins ∧ ends ∈ rest then [] :: stretches begins ends true rest
      else consStretch line (stretches begins ends false rest)
  | true, line :: rest =>
      if line = ends then stretches begins ends false rest else stretches begins ends true rest

/-- The lines outside of the managed blocks. -/
def outside (begins ends : Text) (lines : List Text) : List Text :=
  (stretches begins ends false lines).flatten

theorem flatten_consStretch (line : Text) (pieces : List (List Text)) :
    (consStretch line pieces).flatten = line :: pieces.flatten := by
  cases pieces with
  | nil => rfl
  | cons first more => rfl

theorem flatten_stretches_sublist (inside : Bool) (lines : List Text) :
    (stretches begins ends inside lines).flatten.Sublist lines := by
  induction lines generalizing inside with
  | nil =>
      cases inside with
      | false => exact List.Sublist.slnil
      | true => exact List.Sublist.slnil
  | cons line rest ih =>
      cases inside with
      | false =>
          rw [stretches]
          split
          · exact (ih true).cons line
          · rw [flatten_consStretch]
            exact (ih false).cons_cons line
      | true =>
          rw [stretches]
          split
          · exact (ih false).cons line
          · exact (ih true).cons line

/-- No managed block is left outside. -/
theorem not_block_sublist_outside (lines : List Text) :
    ¬[begins, ends].Sublist (outside begins ends lines) := by
  have both : ∀ inside, ¬[begins, ends].Sublist (stretches begins ends inside lines).flatten := by
    induction lines with
    | nil =>
        intro inside block
        have nothing := block.trans (flatten_stretches_sublist inside [])
        cases nothing
    | cons line rest ih =>
        intro inside block
        cases inside with
        | false =>
            rw [stretches] at block
            split at block
            · exact ih true block
            · rename_i ordinary
              rw [flatten_consStretch] at block
              cases block with
              | cons _ later => exact ih false later
              | cons_cons _ later =>
                  have member : ends ∈ (stretches begins ends false rest).flatten :=
                    List.singleton_sublist.mp later
                  exact ordinary ⟨rfl, (flatten_stretches_sublist false rest).subset member⟩
        | true =>
            rw [stretches] at block
            split at block
            · exact ih false block
            · exact ih true block
  exact both false

/-- Lines without the begin mark are one stretch. -/
theorem stretches_of_not_mem (absent : begins ∉ lines) :
    stretches begins ends false lines = [lines] := by
  induction lines with
  | nil => rfl
  | cons line rest ih =>
      rw [List.mem_cons, not_or] at absent
      have ordinary : ¬(line = begins ∧ ends ∈ rest) := fun both => absent.1 both.1.symm
      rw [stretches, if_neg ordinary, ih absent.2]
      rfl

/-- The stretches around one block. -/
theorem stretches_of_block (before : begins ∉ first) (within : ends ∉ middle)
    (after : begins ∉ second) :
    stretches begins ends false (first ++ begins :: (middle ++ ends :: second)) =
      [first, second] := by
  have closed : stretches begins ends true (middle ++ ends :: second) = [second] := by
    induction middle with
    | nil => rw [List.nil_append, stretches, if_pos rfl, stretches_of_not_mem after]
    | cons line middle ih =>
        rw [List.mem_cons, not_or] at within
        rw [List.cons_append, stretches, if_neg (Ne.symm within.1), ih within.2]
  induction first with
  | nil =>
      have opened : ends ∈ middle ++ ends :: second :=
        List.mem_append_right _ List.mem_cons_self
      rw [List.nil_append, stretches, if_pos ⟨rfl, opened⟩, closed]
  | cons line first ih =>
      rw [List.mem_cons, not_or] at before
      rw [List.cons_append, stretches, if_neg fun both => before.1 both.1.symm, ih before.2]
      rfl

/-- Where a property of all lines outside fails of the begin mark, a block stands behind lines
that have the property, or no line is in a block. -/
theorem exists_block_of_outside {p : Text → Prop} (marked : ¬p begins)
    (plain : ∀ line ∈ outside begins ends lines, p line) :
    (∀ line ∈ lines, p line) ∨ ∃ first middle second,
      lines = first ++ begins :: (middle ++ ends :: second) ∧ (∀ line ∈ first, p line) ∧
        ends ∉ middle := by
  induction lines with
  | nil => exact .inl (List.forall_mem_nil _)
  | cons line rest ih =>
      rw [outside, stretches] at plain
      split at plain
      · rename_i opens
        obtain ⟨rfl, closes⟩ := opens
        obtain ⟨middle, second, rfl, within⟩ := List.eq_append_cons_of_mem closes
        exact .inr ⟨[], middle, second, rfl, List.forall_mem_nil _, within⟩
      · rw [flatten_consStretch, List.forall_mem_cons] at plain
        obtain ⟨here, further⟩ := plain
        obtain all | ⟨first, middle, second, rfl, before, within⟩ := ih further
        · exact .inl (List.forall_mem_cons.mpr ⟨here, all⟩)
        · exact .inr ⟨line :: first, middle, second, rfl,
            List.forall_mem_cons.mpr ⟨here, before⟩, within⟩

/-! ## Giving back -/

/-- The same lines but for empty ones at the end. -/
def SameBefore (stretch piece : List Text) : Prop :=
  dropEmptyEnd stretch = dropEmptyEnd piece

/-- The same lines but for empty ones at both ends. -/
def SameBetween (stretch piece : List Text) : Prop :=
  dropEmptyEnd (dropEmptyStart stretch) = dropEmptyEnd (dropEmptyStart piece)

theorem sameBetween_dropEmpty (lines : List Text) :
    SameBetween lines (dropEmptyEnd (dropEmptyStart lines) ++ [[]]) := by
  unfold SameBetween
  cases inner : dropEmptyEnd (dropEmptyStart lines) with
  | nil => rfl
  | cons line rest =>
      have filledLine : ¬line.isEmpty = true := by
        have leads : line :: rest <+: dropEmptyStart lines := by
          rw [← inner]
          exact List.rdropWhile_prefix _ _
        obtain ⟨more, whole⟩ := leads
        have fixed : dropEmptyStart (dropEmptyStart lines) = dropEmptyStart lines :=
          List.dropWhile_idempotent ..
        rw [← whole] at fixed
        exact List.dropWhile_eq_self_iff.mp fixed (Nat.succ_pos _)
      have kept : dropEmptyStart (line :: rest ++ [[]]) = line :: rest ++ [[]] :=
        List.dropWhile_cons_of_neg filledLine
      rw [kept, dropEmptyEnd_concat_nil, ← inner, dropEmptyEnd_dropEmptyEnd]

/-- The lines are those of the stretches in their order, but for empty lines where a block
was. -/
inductive GivesBack : List (List Text) → List Text → Prop
  | intro {first piece : List Text} {more pieces : List (List Text)}
      (before : SameBefore first piece) (between : List.Forall₂ SameBetween more pieces) :
      GivesBack (first :: more) (piece ++ pieces.flatten)

/-- The lines that are not empty. -/
def filled (lines : List Text) : List Text :=
  lines.filter fun line => !line.isEmpty

theorem filled_append (first second : List Text) :
    filled (first ++ second) = filled first ++ filled second :=
  List.filter_append ..

theorem filled_dropEmptyEnd (lines : List Text) : filled (dropEmptyEnd lines) = filled lines := by
  induction lines using List.reverseRecOn with
  | nil => rfl
  | append_singleton lines last ih =>
      cases last with
      | nil =>
          rw [dropEmptyEnd, List.rdropWhile_concat_pos _ _ _ rfl, filled_append]
          change filled (dropEmptyEnd lines) = filled lines ++ []
          rw [ih, List.append_nil]
      | cons c more => rw [dropEmptyEnd, List.rdropWhile_concat_neg _ _ _ Bool.false_ne_true]

theorem filled_dropEmptyStart (lines : List Text) :
    filled (dropEmptyStart lines) = filled lines := by
  induction lines with
  | nil => rfl
  | cons line rest ih =>
      cases line with
      | nil =>
          rw [dropEmptyStart, List.dropWhile_cons_of_pos rfl]
          exact ih
      | cons c more => rw [dropEmptyStart, List.dropWhile_cons_of_neg Bool.false_ne_true]

/-- No other line is there, and none is lost. -/
theorem GivesBack.filled_eq {pieces : List (List Text)} (gives : GivesBack pieces lines) :
    filled lines = filled pieces.flatten := by
  obtain ⟨before, between⟩ := gives
  have start := congrArg filled before
  rw [filled_dropEmptyEnd, filled_dropEmptyEnd] at start
  rw [List.flatten_cons, filled_append, filled_append, start]
  congr 1
  clear before start
  induction between with
  | nil => rfl
  | cons same _ ih =>
      have here := congrArg filled same
      rw [filled_dropEmptyEnd, filled_dropEmptyStart, filled_dropEmptyEnd,
        filled_dropEmptyStart] at here
      rw [List.flatten_cons, List.flatten_cons, filled_append, filled_append, here, ih]

end DataOlympus.Lines
