import DataOlympus.Text.Lines

/-!
# The pieces between separators

Cutting a list at a separator takes it apart into stretches without one.  Which stretches
these are is said here in terms of the list alone, without the cutting.
-/

namespace DataOlympus.Lines

variable {α : Type} [DecidableEq α] {separator : α} {items piece more : List α}
  {pieces : List (List α)}

/-- A stretch ends where the list does, or at a separator. -/
def EndsAt (separator : α) (after : List α) : Prop :=
  after = [] ∨ ∃ rest, after = separator :: rest

theorem not_mem_takeWhile_ne : separator ∉ items.takeWhile (· ≠ separator) := by
  intro member
  have different := List.mem_takeWhile_imp member
  exact of_decide_eq_true different rfl

theorem endsAt_dropWhile (separator : α) (items : List α) :
    EndsAt separator (items.dropWhile (· ≠ separator)) := by
  induction items with
  | nil => exact .inl rfl
  | cons item items ih =>
      rw [List.dropWhile_cons]
      split
      · exact ih
      · rename_i stop
        have same : item = separator := by simpa using stop
        exact .inr ⟨items, by rw [same]⟩

/-- Every list is one piece, or a piece that a separator cuts off. -/
theorem pieces_induction (separator : α) {motive : List α → Prop}
    (last : ∀ piece, separator ∉ piece → motive piece)
    (cut : ∀ piece rest, separator ∉ piece → motive rest → motive (piece ++ separator :: rest))
    (items : List α) : motive items := by
  have extend : ∀ done : List α, separator ∉ done → motive (done ++ items) := by
    induction items with
    | nil =>
        intro done clean
        rw [List.append_nil]
        exact last done clean
    | cons item items ih =>
        intro done clean
        by_cases same : item = separator
        · subst item
          exact cut done items clean (ih [] List.not_mem_nil)
        · rw [List.append_cons]
          apply ih
          rw [List.mem_append, List.mem_singleton, not_or]
          exact ⟨clean, fun equal => same equal.symm⟩
  exact extend [] List.not_mem_nil

/-- The first piece, and the pieces of what follows. -/
theorem splitOn_eq_cons_iff : items.splitOn separator = piece :: pieces ↔
    separator ∉ piece ∧ (items = piece ∧ pieces = [] ∨
      ∃ rest, items = piece ++ separator :: rest ∧ pieces = rest.splitOn separator) := by
  constructor
  · intro split
    have clean : separator ∉ piece := by
      have among : piece ∈ items.splitOn separator := by
        rw [split]
        exact List.mem_cons_self
      exact separator_not_mem_of_mem_splitOn among
    refine ⟨clean, ?_⟩
    induction items using pieces_induction separator with
    | last first whole =>
        rw [List.splitOn_eq_singleton whole] at split
        obtain ⟨rfl, rfl⟩ := List.cons.inj split
        exact .inl ⟨rfl, rfl⟩
    | cut first rest whole _ =>
        rw [List.splitOn_append_cons_self_of_not_mem whole] at split
        obtain ⟨rfl, rfl⟩ := List.cons.inj split
        exact .inr ⟨rest, rfl, rfl⟩
  · rintro ⟨clean, ⟨rfl, rfl⟩ | ⟨rest, rfl, rfl⟩⟩
    · exact List.splitOn_eq_singleton clean
    · exact List.splitOn_append_cons_self_of_not_mem clean rest

/-- The pieces are stretches of the list. -/
theorem mem_of_mem_splitOn {item : α} (among : piece ∈ items.splitOn separator)
    (member : item ∈ piece) : item ∈ items := by
  induction items using pieces_induction separator with
  | last first whole =>
      rw [List.splitOn_eq_singleton whole, List.mem_singleton] at among
      rwa [among] at member
  | cut first rest whole ih =>
      rw [List.splitOn_append_cons_self_of_not_mem whole] at among
      rcases List.mem_cons.mp among with rfl | later
      · exact List.mem_append_left _ member
      · exact List.mem_append_right _ (List.mem_cons_of_mem _ (ih later))

/-- What stands before the first separator stands in the first piece. -/
theorem splitOn_append_of_not_mem (first : List α) (clean : separator ∉ first)
    (split : items.splitOn separator = piece :: pieces) :
    (first ++ items).splitOn separator = (first ++ piece) :: pieces := by
  obtain ⟨whole, rest⟩ := splitOn_eq_cons_iff.mp split
  apply splitOn_eq_cons_iff.mpr
  refine ⟨by rw [List.mem_append, not_or]; exact ⟨clean, whole⟩, ?_⟩
  obtain ⟨rfl, rfl⟩ | ⟨rest, rfl, rfl⟩ := rest
  · exact .inl ⟨rfl, rfl⟩
  · exact .inr ⟨rest, by rw [List.append_assoc], rfl⟩

/-- The first piece is what stands before the first separator. -/
theorem exists_splitOn_eq_cons (separator : α) (items : List α) :
    ∃ pieces, items.splitOn separator =
      (items.takeWhile fun item => item ≠ separator) :: pieces := by
  induction items with
  | nil => exact ⟨[], List.splitOn_nil separator⟩
  | cons item items ih =>
      obtain ⟨pieces, split⟩ := ih
      by_cases same : item = separator
      · subst item
        refine ⟨items.splitOn separator, ?_⟩
        rw [List.takeWhile_cons_of_neg (by simp)]
        exact List.splitOn_append_cons_self_of_not_mem List.not_mem_nil items
      · refine ⟨pieces, ?_⟩
        rw [List.takeWhile_cons_of_pos (by simpa using same)]
        apply splitOn_append_of_not_mem [item] _ split
        rw [List.mem_singleton]
        exact fun equal => same equal.symm

/-- Pieces that the separator ends one by one. -/
theorem splitOn_flatMap_concat (clean : ∀ piece ∈ pieces, separator ∉ piece) :
    (pieces.flatMap fun piece => piece ++ [separator]).splitOn separator = pieces ++ [[]] := by
  induction pieces with
  | nil => exact List.splitOn_nil separator
  | cons piece pieces ih =>
      obtain ⟨first, further⟩ := List.forall_mem_cons.mp clean
      rw [List.flatMap_cons, List.append_assoc, List.cons_append, List.nil_append,
        List.splitOn_append_cons_self_of_not_mem first, ih further, List.cons_append]

/-- The stretches that lead a list up to a separator. -/
theorem head?_splitOn_iff : (items.splitOn separator).head? = some piece ↔
    separator ∉ piece ∧ ∃ after, items = piece ++ after ∧ EndsAt separator after := by
  obtain ⟨first, pieces, split⟩ :=
    List.exists_cons_of_ne_nil (List.splitOn_ne_nil separator items)
  constructor
  · intro leads
    rw [split, List.head?_cons, Option.some.injEq] at leads
    subst first
    obtain ⟨clean, ⟨rfl, _⟩ | ⟨rest, rfl, _⟩⟩ := splitOn_eq_cons_iff.mp split
    · exact ⟨clean, [], (List.append_nil items).symm, .inl rfl⟩
    · exact ⟨clean, separator :: rest, rfl, .inr ⟨rest, rfl⟩⟩
  · rintro ⟨clean, after, rfl, rfl | ⟨rest, rfl⟩⟩
    · rw [List.append_nil, List.splitOn_eq_singleton clean, List.head?_cons]
    · rw [List.splitOn_append_cons_self_of_not_mem clean, List.head?_cons]

/-- The stretches that a separator opens. -/
theorem mem_tail_splitOn_iff : piece ∈ (items.splitOn separator).tail ↔
    separator ∉ piece ∧ ∃ before after,
      items = before ++ separator :: (piece ++ after) ∧ EndsAt separator after := by
  induction items using pieces_induction separator with
  | last first whole =>
      rw [List.splitOn_eq_singleton whole, List.tail_cons]
      apply iff_of_false List.not_mem_nil
      rintro ⟨_, before, after, rfl, _⟩
      exact whole (List.mem_append_right before List.mem_cons_self)
  | cut first rest whole ih =>
      rw [List.splitOn_append_cons_self_of_not_mem whole, List.tail_cons]
      have head_or_tail : piece ∈ rest.splitOn separator ↔
          (rest.splitOn separator).head? = some piece ∨
            piece ∈ (rest.splitOn separator).tail := by
        obtain ⟨head, pieces, split⟩ :=
          List.exists_cons_of_ne_nil (List.splitOn_ne_nil separator rest)
        rw [split, List.head?_cons, List.tail_cons, List.mem_cons, Option.some.injEq,
          eq_comm (a := head)]
      rw [head_or_tail, ih, head?_splitOn_iff, ← and_or_left]
      apply and_congr_right
      intro _
      constructor
      · rintro (⟨after, rfl, ends⟩ | ⟨before, after, rfl, ends⟩)
        · exact ⟨first, after, rfl, ends⟩
        · exact ⟨first ++ separator :: before, after, by simp, ends⟩
      · rintro ⟨before, after, same, ends⟩
        obtain ⟨between, rfl, glued⟩ | ⟨between, rfl, glued⟩ := List.append_eq_append_iff.mp same
        · cases between with
          | nil => exact .inl ⟨after, (List.cons.inj glued).2, ends⟩
          | cons item between =>
              obtain ⟨rfl, rest_eq⟩ := List.cons.inj glued
              exact .inr ⟨between, after, rest_eq, ends⟩
        · cases between with
          | nil => exact .inl ⟨after, ((List.cons.inj glued).2).symm, ends⟩
          | cons item between =>
              obtain ⟨rfl, _⟩ := List.cons.inj glued
              exact absurd (List.mem_append_right before List.mem_cons_self) whole

end DataOlympus.Lines
