import Mathlib.Data.List.Forall2

/-!
# Computations that may raise

Inversion rules for `Except`: a sequence succeeds exactly when its parts do, and
a loop over a list succeeds exactly when every round does.
-/

namespace DataOlympus.Except

universe u v

variable {ε α β : Type u}

theorem bind_eq_ok_iff {x : Except ε α} {f : α → Except ε β} {b : β} :
    (x >>= f) = .ok b ↔ ∃ a, x = .ok a ∧ f a = .ok b := by
  cases x with
  | error e => simp [bind, Except.bind]
  | ok a => simp [bind, Except.bind]

theorem map_eq_ok_iff {x : Except ε α} {f : α → β} {b : β} :
    x.map f = .ok b ↔ ∃ a, x = .ok a ∧ f a = b := by
  cases x with
  | error e => simp [Except.map]
  | ok a => simp [Except.map]

theorem bind_eq_error_iff {x : Except ε α} {f : α → Except ε β} {e : ε} :
    (x >>= f) = .error e ↔ x = .error e ∨ ∃ a, x = .ok a ∧ f a = .error e := by
  cases x with
  | error e => simp [bind, Except.bind]
  | ok a => simp [bind, Except.bind]

theorem mapError_eq_ok_iff {ε' : Type u} {x : Except ε α} {f : ε → ε'} {a : α} :
    x.mapError f = .ok a ↔ x = .ok a := by
  cases x with
  | error e => simp [Except.mapError]
  | ok a' => simp [Except.mapError]

/-- The results of a loop stand in the order of its rounds. -/
theorem mapM_eq_ok_iff {γ : Type v} {f : γ → Except ε β} {items : List γ}
    {results : List β} :
    items.mapM f = .ok results ↔
      List.Forall₂ (fun item result => f item = .ok result) items results := by
  induction items generalizing results with
  | nil =>
      rw [List.mapM_nil, List.forall₂_nil_left_iff]
      exact ⟨fun same => (Except.ok.inj same).symm, fun empty => congrArg _ empty.symm⟩
  | cons item items ih =>
      rw [List.mapM_cons, bind_eq_ok_iff]
      constructor
      · rintro ⟨first, firstOk, rest⟩
        rcases bind_eq_ok_iff.mp rest with ⟨others, othersOk, last⟩
        cases last
        exact List.Forall₂.cons firstOk (ih.mp othersOk)
      · intro rounds
        cases rounds with
        | cons firstOk others =>
            exact ⟨_, firstOk, bind_eq_ok_iff.mpr ⟨_, ih.mpr others, rfl⟩⟩

/-- A loop succeeds exactly when each of its rounds does. -/
theorem exists_mapM_ok_iff {γ : Type v} {f : γ → Except ε β} {items : List γ} :
    (∃ results, items.mapM f = .ok results) ↔
      ∀ item ∈ items, ∃ result, f item = .ok result := by
  induction items with
  | nil => simp [pure, Except.pure]
  | cons item items ih =>
      simp only [mapM_eq_ok_iff] at ih ⊢
      constructor
      · rintro ⟨results, rounds⟩
        cases rounds with
        | cons firstOk others =>
            intro other member
            rcases List.mem_cons.mp member with rfl | later
            · exact ⟨_, firstOk⟩
            · exact ih.mp ⟨_, others⟩ other later
      · intro each
        rcases each item List.mem_cons_self with ⟨first, firstOk⟩
        rcases ih.mpr fun other later => each other (List.mem_cons_of_mem _ later) with
          ⟨others, othersOk⟩
        exact ⟨first :: others, List.Forall₂.cons firstOk othersOk⟩

/-- A loop succeeds with results of one kind exactly when each of its rounds does. -/
theorem exists_mapM_ok_all_iff {γ : Type v} {f : γ → Except ε β} {p : β → Prop}
    {items : List γ} :
    (∃ results, items.mapM f = .ok results ∧ ∀ result ∈ results, p result) ↔
      ∀ item ∈ items, ∃ result, f item = .ok result ∧ p result := by
  constructor
  · rintro ⟨results, done, kind⟩ item member
    have rounds := mapM_eq_ok_iff.mp done
    clear done
    induction rounds with
    | nil => cases member
    | cons firstOk _ ih =>
        rcases List.mem_cons.mp member with rfl | later
        · exact ⟨_, firstOk, kind _ List.mem_cons_self⟩
        · exact ih (fun result resultIn => kind result (List.mem_cons_of_mem _ resultIn)) later
  · intro each
    rcases exists_mapM_ok_iff.mpr fun item member =>
        (each item member).imp fun _ done => done.1 with ⟨results, done⟩
    refine ⟨results, done, ?_⟩
    intro result member
    have rounds := mapM_eq_ok_iff.mp done
    clear done
    induction rounds with
    | nil => cases member
    | cons firstOk _ ih =>
        rcases List.mem_cons.mp member with rfl | later
        · rcases each _ List.mem_cons_self with ⟨found, foundOk, kind⟩
          cases firstOk.symm.trans foundOk
          exact kind
        · exact ih (fun item itemIn => each item (List.mem_cons_of_mem _ itemIn)) later

/-- A loop succeeds with a related result for every item exactly when each of its rounds
does. -/
theorem exists_mapM_ok_forall₂_iff {γ : Type v} {f : γ → Except ε β} {r : γ → β → Prop}
    {items : List γ} :
    (∃ results, items.mapM f = .ok results ∧ List.Forall₂ r items results) ↔
      ∀ item ∈ items, ∃ result, f item = .ok result ∧ r item result := by
  simp only [mapM_eq_ok_iff]
  induction items with
  | nil => simp
  | cons item items ih =>
      rw [List.forall_mem_cons, ← ih]
      constructor
      · rintro ⟨results, rounds, related⟩
        cases rounds with
        | cons firstOk others =>
            cases related with
            | cons first rest => exact ⟨⟨_, firstOk, first⟩, _, others, rest⟩
      · rintro ⟨⟨result, firstOk, first⟩, results, others, rest⟩
        exact ⟨result :: results, .cons firstOk others, .cons first rest⟩

/-- Every result of a loop comes from one of its rounds. -/
theorem exists_of_mem_mapM {γ : Type v} {f : γ → Except ε β} {items : List γ}
    {results : List β} (done : items.mapM f = .ok results) {result : β}
    (member : result ∈ results) : ∃ item ∈ items, f item = .ok result := by
  have rounds := mapM_eq_ok_iff.mp done
  clear done
  induction rounds with
  | nil => cases member
  | cons firstOk _ ih =>
      rcases List.mem_cons.mp member with rfl | later
      · exact ⟨_, List.mem_cons_self, firstOk⟩
      · rcases ih later with ⟨item, itemIn, itemOk⟩
        exact ⟨item, List.mem_cons_of_mem _ itemIn, itemOk⟩

/-- Every round of a loop that succeeds leaves its result. -/
theorem mem_mapM_of_mem {γ : Type v} {f : γ → Except ε β} {items : List γ}
    {results : List β} (done : items.mapM f = .ok results) {item : γ}
    (member : item ∈ items) : ∃ result ∈ results, f item = .ok result := by
  have rounds := mapM_eq_ok_iff.mp done
  clear done
  induction rounds with
  | nil => cases member
  | cons firstOk _ ih =>
      rcases List.mem_cons.mp member with rfl | later
      · exact ⟨_, List.mem_cons_self, firstOk⟩
      · rcases ih later with ⟨result, resultIn, resultOk⟩
        exact ⟨result, List.mem_cons_of_mem _ resultIn, resultOk⟩

/-- A loop that raises does so in one of its rounds. -/
theorem exists_of_mapM_error {γ : Type v} {f : γ → Except ε β} {items : List γ} {e : ε}
    (raised : items.mapM f = .error e) : ∃ item ∈ items, f item = .error e := by
  induction items with
  | nil => cases raised
  | cons first rest ih =>
      rw [List.mapM_cons] at raised
      rcases bind_eq_error_iff.mp raised with now | ⟨result, -, later⟩
      · exact ⟨first, List.mem_cons_self, now⟩
      · rcases bind_eq_error_iff.mp later with loop | ⟨results, -, impossible⟩
        · rcases ih loop with ⟨item, member, itemRaised⟩
          exact ⟨item, List.mem_cons_of_mem _ member, itemRaised⟩
        · cases impossible

/-- A feature that each result shares with its item is shared in order. -/
theorem map_eq_map_of_mapM {γ : Type v} {δ : Type*} {f : γ → Except ε β}
    {items : List γ} {results : List β} (done : items.mapM f = .ok results)
    {ofItem : γ → δ} {ofResult : β → δ}
    (shared : ∀ item result, f item = .ok result → ofResult result = ofItem item) :
    results.map ofResult = items.map ofItem := by
  have rounds := mapM_eq_ok_iff.mp done
  clear done
  induction rounds with
  | nil => rfl
  | cons firstOk _ ih => rw [List.map_cons, List.map_cons, ih, shared _ _ firstOk]

/-- What every round of a loop keeps, the whole loop keeps. -/
theorem foldlM_induction {γ : Type v} {f : α → γ → Except ε α} {items : List γ}
    {invariant : α → Prop} {start final : α} (initially : invariant start)
    (kept : ∀ state next item, item ∈ items → invariant state → f state item = .ok next →
      invariant next) (looped : items.foldlM f start = .ok final) : invariant final := by
  induction items generalizing start with
  | nil =>
      rw [List.foldlM_nil] at looped
      cases looped
      exact initially
  | cons item rest ih =>
      rw [List.foldlM_cons] at looped
      rcases bind_eq_ok_iff.mp looped with ⟨next, stepped, others⟩
      exact ih (kept start next item List.mem_cons_self initially stepped)
        (fun state later other member => kept state later other (List.mem_cons_of_mem _ member))
        others

/-- Two computations with the same view go on alike as far as the view tells. -/
theorem bind_map_congr {γ δ : Type u} {x x' : Except ε α} {view : α → β}
    (same : x.map view = x'.map view) {f f' : α → Except ε γ} {after : γ → δ}
    (rest : ∀ a a', view a = view a' → (f a).map after = (f' a').map after) :
    (x >>= f).map after = (x' >>= f').map after := by
  cases x with
  | error e =>
      cases x' with
      | error e' =>
          cases same
          rfl
      | ok a' => cases same
  | ok a =>
      cases x' with
      | error e' => cases same
      | ok a' => exact rest a a' (Except.ok.inj same)

/-- Two loops whose rounds keep the same view end with the same view. -/
theorem foldlM_map_congr {γ : Type v} {view : α → β} {f f' : α → γ → Except ε α} {items : List γ}
    (round : ∀ state state' item, view state = view state' →
      (f state item).map view = (f' state' item).map view)
    {start start' : α} (same : view start = view start') :
    (items.foldlM f start).map view = (items.foldlM f' start').map view := by
  induction items generalizing start start' with
  | nil => exact congrArg Except.ok same
  | cons item rest ih =>
      rw [List.foldlM_cons, List.foldlM_cons]
      exact bind_map_congr (round start start' item same) fun _ _ here => ih here

/-- Two loops whose results look alike item by item have lists of results that do. -/
theorem mapM_map_congr {γ : Type v} {view : α → β} {f f' : γ → Except ε α} {items : List γ}
    (round : ∀ item, (f item).map view = (f' item).map view) :
    (items.mapM f).map (List.map view) = (items.mapM f').map (List.map view) := by
  induction items with
  | nil => rfl
  | cons item rest ih =>
      rw [List.mapM_cons, List.mapM_cons]
      refine bind_map_congr (round item) fun first first' here => ?_
      refine bind_map_congr ih fun others others' alike => ?_
      exact congrArg Except.ok (by rw [List.map_cons, List.map_cons, here, alike])

end DataOlympus.Except
