import Mathlib.Data.List.Forall2
import Mathlib.Data.List.Perm.Basic

/-!
# Pairing two lists

Each item of a list takes the first item of another list that fits it.  If two items that fit
a third one fit the same items, this finds a pairing of the two lists whenever there is one.
-/

namespace DataOlympus.Select

variable {α β : Type}

/-- Each item takes the first fitting one, and none is left over. -/
def pairsUp (fits : α → β → Bool) : List α → List β → Bool
  | [], unmatched => unmatched.isEmpty
  | item :: rest, unmatched =>
      unmatched.any (fits item) && pairsUp fits rest (unmatched.eraseP (fits item))

/-- Items that fit one item fit the same items. -/
def Exchanges (fits : α → β → Bool) (items : List α) : Prop :=
  ∀ first ∈ items, ∀ second ∈ items, ∀ shared other, fits first shared = true →
    fits first other = true → fits second shared = true → fits second other = true

/-- In a pairing one partner can be replaced by another one that fits the same items. -/
theorem forall₂_replace {fits : α → β → Bool} {items : List α} {before after : List β}
    {old new : β} (replaces : ∀ item ∈ items, fits item old = true → fits item new = true)
    (paired : List.Forall₂ (fits · · = true) items (before ++ old :: after)) :
    List.Forall₂ (fits · · = true) items (before ++ new :: after) := by
  induction before generalizing items with
  | nil =>
      cases paired with
      | cons first rest => exact .cons (replaces _ List.mem_cons_self first) rest
  | cons partner before ih =>
      cases paired with
      | cons first rest =>
          exact .cons first (ih (fun item member => replaces item (List.mem_cons_of_mem _ member))
            rest)

/-- The lists pair up if and only if the second one can be ordered to fit the first. -/
theorem pairsUp_iff {fits : α → β → Bool} {items : List α} (exchanges : Exchanges fits items)
    {others : List β} : pairsUp fits items others = true ↔
      ∃ partners, List.Forall₂ (fits · · = true) items partners ∧ partners.Perm others := by
  induction items generalizing others with
  | nil =>
      rw [pairsUp, List.isEmpty_iff]
      constructor
      · rintro rfl
        exact ⟨[], .nil, .refl _⟩
      · rintro ⟨partners, paired, same⟩
        cases paired
        exact List.nil_perm.mp same
  | cons item rest ih =>
      have fewer : Exchanges fits rest := fun first inRest second alsoInRest =>
        exchanges first (List.mem_cons_of_mem _ inRest) second (List.mem_cons_of_mem _ alsoInRest)
      rw [pairsUp, Bool.and_eq_true, List.any_eq_true, ih fewer]
      constructor
      · rintro ⟨⟨found, member, fitting⟩, partners, paired, same⟩
        obtain ⟨chosen, before, after, -, chosenFits, rfl, erased⟩ :=
          List.exists_of_eraseP member fitting
        rw [erased] at same
        exact ⟨chosen :: partners, .cons chosenFits paired,
          (same.cons chosen).trans List.perm_middle.symm⟩
      · rintro ⟨partners, paired, same⟩
        cases paired with
        | @cons _ partner _ partners fitting paired =>
            have member : partner ∈ others := same.subset List.mem_cons_self
            refine ⟨⟨partner, member, fitting⟩, ?_⟩
            obtain ⟨chosen, before, after, -, chosenFits, rfl, erased⟩ :=
              List.exists_of_eraseP member fitting
            rw [erased]
            have rearranged : (partner :: partners).Perm (chosen :: (before ++ after)) :=
              same.trans List.perm_middle
            obtain rfl | later := List.mem_cons.mp (rearranged.symm.subset List.mem_cons_self)
            · exact ⟨partners, paired, rearranged.cons_inv⟩
            · obtain ⟨front, back, rfl⟩ := List.append_of_mem later
              refine ⟨front ++ partner :: back, forall₂_replace ?_ paired, ?_⟩
              · intro other inRest otherFits
                exact exchanges item List.mem_cons_self other (List.mem_cons_of_mem _ inRest)
                  chosen partner chosenFits fitting otherFits
              · have swapped : (chosen :: (front ++ partner :: back)).Perm
                    (partner :: (front ++ chosen :: back)) :=
                  (List.perm_middle.cons chosen).trans
                    ((List.Perm.swap partner chosen _).trans (List.perm_middle.symm.cons partner))
                exact (swapped.trans rearranged).cons_inv

theorem pairsUp_map {γ δ : Type} (fits : γ → δ → Bool) (first : α → γ) (second : β → δ)
    (items : List α) (others : List β) :
    pairsUp fits (items.map first) (others.map second) =
      pairsUp (fun item other => fits (first item) (second other)) items others := by
  induction items generalizing others with
  | nil => simp [pairsUp]
  | cons item rest ih =>
      rw [List.map_cons, pairsUp, pairsUp, List.any_map, List.eraseP_map, ih]
      rfl

theorem length_eq_of_pairsUp {fits : α → β → Bool} {items : List α} {others : List β}
    (paired : pairsUp fits items others = true) : items.length = others.length := by
  induction items generalizing others with
  | nil =>
      rw [pairsUp, List.isEmpty_iff] at paired
      rw [paired, List.length_nil, List.length_nil]
  | cons item rest ih =>
      rw [pairsUp, Bool.and_eq_true, List.any_eq_true] at paired
      obtain ⟨⟨found, member, fitting⟩, more⟩ := paired
      have shorter := List.length_eraseP_of_mem member fitting
      have positive := List.length_pos_of_mem member
      rw [List.length_cons, ih more, shorter]
      omega

end DataOlympus.Select
