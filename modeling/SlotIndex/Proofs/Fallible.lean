import Mathlib.Data.List.Forall2

/-!
# Steps that can fail

When a step after a step, a step with its result or its error changed, or a step for each member of a
list succeeds.

* `bind_eq_ok`, `map_eq_ok`, `mapError_eq_ok`, `mapM_eq_ok`.
* `mem_of_mapM_eq_ok`: the results of a list.
* `exists_mapM_eq_ok`: one failure is enough for the list to fail.
* `mapM_guarded`, `flatten_mapM_guarded`: a condition on every member, and the same step for all that they
  list.
* `exists_of_forall₂_append`: a list with a result somewhere in its results.
-/

namespace SlotIndex

variable {ε δ α β γ : Type}

theorem bind_eq_ok {x : Except ε α} {f : α → Except ε β} {b : β} :
    x >>= f = .ok b ↔ ∃ a, x = .ok a ∧ f a = .ok b := by
  cases x <;> simp [bind, Except.bind]

theorem pure_eq_ok {a b : α} : (pure a : Except ε α) = .ok b ↔ a = b := by
  simp [pure, Except.pure]

theorem map_eq_ok {x : Except ε α} {f : α → β} {b : β} :
    f <$> x = .ok b ↔ ∃ a, x = .ok a ∧ f a = b := by
  cases x <;> simp [Functor.map, Except.map]

theorem mapError_eq_ok {x : Except ε α} {f : ε → δ} {a : α} :
    x.mapError f = .ok a ↔ x = .ok a := by
  cases x <;> simp [Except.mapError]

theorem mapM_eq_ok {f : α → Except ε β} {as : List α} {bs : List β} :
    as.mapM f = .ok bs ↔ List.Forall₂ (fun a b => f a = .ok b) as bs := by
  induction as generalizing bs with
  | nil =>
    rw [List.mapM_nil, pure_eq_ok, List.forall₂_nil_left_iff]
    exact eq_comm
  | cons a as ih =>
    simp only [List.mapM_cons, bind_eq_ok, pure_eq_ok, List.forall₂_cons_left_iff, ih]
    constructor
    · rintro ⟨b, hb, bs, hbs, rfl⟩
      exact ⟨b, bs, hb, hbs, rfl⟩
    · rintro ⟨b, bs, hb, hbs, rfl⟩
      exact ⟨b, hb, bs, hbs, rfl⟩

/-- The results for a list are the results for its members. -/
theorem mem_of_mapM_eq_ok {f : α → Except ε β} {as : List α} {bs : List β} (h : as.mapM f = .ok bs)
    {b : β} : b ∈ bs ↔ ∃ a ∈ as, f a = .ok b := by
  have hall := mapM_eq_ok.1 h
  clear h
  induction hall with
  | nil => simp
  | cons hb _ ih => simp [ih, hb, eq_comm]

theorem exists_mapM_eq_ok {f : α → Except ε β} {as : List α} :
    (∃ bs, as.mapM f = .ok bs) ↔ ∀ a ∈ as, ∃ b, f a = .ok b := by
  induction as with
  | nil => simp [pure, Except.pure]
  | cons a as ih =>
    rw [List.forall_mem_cons, ← ih]
    simp only [List.mapM_cons, bind_eq_ok, pure_eq_ok]
    constructor
    · rintro ⟨_, b, hb, bs, hbs, -⟩
      exact ⟨⟨b, hb⟩, bs, hbs⟩
    · rintro ⟨⟨b, hb⟩, bs, hbs⟩
      exact ⟨b :: bs, b, hb, bs, hbs, rfl⟩

theorem mapM_append_eq_ok {f : α → Except ε β} {as as' : List α} {bs : List β} :
    (as ++ as').mapM f = .ok bs ↔
      ∃ xs, as.mapM f = .ok xs ∧ ∃ ys, as'.mapM f = .ok ys ∧ xs ++ ys = bs := by
  simp only [List.mapM_append, bind_eq_ok, pure_eq_ok]

/-- A step that is a condition and another step. -/
theorem mapM_guarded {f : α → Except ε γ} {P : α → Prop} {g : α → β} {h : β → Except ε γ}
    (hf : ∀ a c, f a = .ok c ↔ P a ∧ h (g a) = .ok c) {as : List α} {cs : List γ} :
    as.mapM f = .ok cs ↔ (∀ a ∈ as, P a) ∧ (as.map g).mapM h = .ok cs := by
  simp only [mapM_eq_ok, List.forall₂_map_left_iff, ← List.forall₂_and_left, hf]

/-- A step that is a condition and another step for each member of a list. -/
theorem flatten_mapM_guarded {f : α → Except ε (List γ)} {P : α → Prop} {g : α → List β}
    {h : β → Except ε γ} (hf : ∀ a cs, f a = .ok cs ↔ P a ∧ (g a).mapM h = .ok cs) {as : List α}
    {cs : List γ} : (∃ lists, as.mapM f = .ok lists ∧ lists.flatten = cs) ↔
      (∀ a ∈ as, P a) ∧ (as.flatMap g).mapM h = .ok cs := by
  induction as generalizing cs with
  | nil => simp [pure, Except.pure]
  | cons a as ih =>
    simp only [List.flatMap_cons, List.forall_mem_cons, mapM_append_eq_ok, List.mapM_cons, bind_eq_ok,
      pure_eq_ok, hf]
    constructor
    · rintro ⟨_, ⟨xs, ⟨hguard, hxs⟩, lists, hlists, rfl⟩, rfl⟩
      obtain ⟨hguards, hys⟩ := ih.1 ⟨lists, hlists, rfl⟩
      exact ⟨⟨hguard, hguards⟩, xs, hxs, _, hys, rfl⟩
    · rintro ⟨⟨hguard, hguards⟩, xs, hxs, ys, hys, rfl⟩
      obtain ⟨lists, hlists, rfl⟩ := ih.2 ⟨hguards, hys⟩
      exact ⟨_, ⟨xs, ⟨hguard, hxs⟩, lists, hlists, rfl⟩, rfl⟩

theorem exists_of_forall₂_append {R : α → β → Prop} {as : List α} {front back : List β} {b : β}
    (h : List.Forall₂ R as (front ++ b :: back)) :
    ∃ front' a back', as = front' ++ a :: back' ∧ R a b ∧ List.Forall₂ R back' back := by
  obtain ⟨a, back', hab, hback, hdrop⟩ :=
    List.forall₂_cons_right_iff.1 (List.forall₂_drop_append as front (b :: back) h)
  exact ⟨as.take front.length, a, back', by rw [← hdrop, List.take_append_drop], hab, hback⟩

end SlotIndex
