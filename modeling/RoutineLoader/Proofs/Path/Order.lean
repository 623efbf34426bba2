import RoutineLoader.Proofs.Path.Components

/-!
# The order of paths

`Path.le` orders paths by their components. It is total and transitive, and of two paths with
different components only one comes before the other. So `Path.Before` is a strict order, and a
list in this order is determined by its members.
-/

namespace RoutineLoader.Path

variable {a b c : Component} {as bs cs : List Component} {p q r : Path}

/-! ## Components -/

/-- The text of a name, and no text for other components. -/
def Component.text : Component → String
  | name t => t
  | _ => ""

theorem Component.precedes_iff :
    a.precedes b ↔ a.rank < b.rank ∨ (a.rank = b.rank ∧ a.text < b.text) := by
  cases a <;> cases b <;> simp [precedes, rank, text]

theorem Component.eq_of_rank_of_text (hrank : a.rank = b.rank) (htext : a.text = b.text) :
    a = b := by
  cases a <;> cases b <;> simp_all [rank, text]

theorem Component.precedes_trans (hab : a.precedes b) (hbc : b.precedes c) : a.precedes c := by
  rw [precedes_iff] at hab hbc ⊢
  rcases hab with hab | ⟨hab, hab'⟩
  · rcases hbc with hbc | ⟨hbc, -⟩ <;> omega
  · rcases hbc with hbc | ⟨hbc, hbc'⟩
    · omega
    · exact Or.inr ⟨hab.trans hbc, String.lt_trans hab' hbc'⟩

theorem Component.not_precedes_self (a : Component) : ¬a.precedes a := by
  rw [precedes_iff]
  rintro (h | ⟨-, h⟩)
  · exact Nat.lt_irrefl _ h
  · exact String.lt_irrefl _ h

/-- One of two components comes first, unless they are the same. -/
theorem Component.trichotomy (a b : Component) : a.precedes b ∨ a = b ∨ b.precedes a := by
  rw [precedes_iff, precedes_iff]
  rcases Nat.lt_trichotomy a.rank b.rank with h | h | h
  · exact Or.inl (Or.inl h)
  · by_cases hab : a.text < b.text
    · exact Or.inl (Or.inr ⟨h, hab⟩)
    by_cases hba : b.text < a.text
    · exact Or.inr (Or.inr (Or.inr ⟨h.symm, hba⟩))
    · have htext := String.le_antisymm (String.not_lt.mp hba) (String.not_lt.mp hab)
      exact Or.inr (Or.inl (eq_of_rank_of_text h htext))
  · exact Or.inr (Or.inr (Or.inl h))

/-! ## Lists of components -/

theorem componentsLe_cons :
    componentsLe (a :: as) (b :: bs) ↔ a.precedes b ∨ (a = b ∧ componentsLe as bs) := by
  simp [componentsLe]

theorem componentsLe_total (as bs : List Component) :
    componentsLe as bs ∨ componentsLe bs as := by
  induction as generalizing bs with
  | nil => exact Or.inl rfl
  | cons a as ih =>
    cases bs with
    | nil => exact Or.inr rfl
    | cons b bs =>
      rw [componentsLe_cons, componentsLe_cons]
      rcases Component.trichotomy a b with h | rfl | h
      · exact Or.inl (Or.inl h)
      · exact (ih bs).imp (Or.inr ⟨rfl, ·⟩) (Or.inr ⟨rfl, ·⟩)
      · exact Or.inr (Or.inl h)

theorem componentsLe_trans (hab : componentsLe as bs) (hbc : componentsLe bs cs) :
    componentsLe as cs := by
  induction as generalizing bs cs with
  | nil => rfl
  | cons a as ih =>
    cases bs with
    | nil => cases hab
    | cons b bs =>
      cases cs with
      | nil => cases hbc
      | cons c cs =>
        rw [componentsLe_cons] at hab hbc ⊢
        rcases hab with hab | ⟨rfl, hab⟩
        · rcases hbc with hbc | ⟨rfl, -⟩
          · exact Or.inl (Component.precedes_trans hab hbc)
          · exact Or.inl hab
        · exact hbc.imp_right fun hbc => ⟨hbc.1, ih hab hbc.2⟩

theorem componentsLe_antisymm (hab : componentsLe as bs) (hba : componentsLe bs as) : as = bs := by
  induction as generalizing bs with
  | nil =>
    cases bs with
    | nil => rfl
    | cons b bs => cases hba
  | cons a as ih =>
    cases bs with
    | nil => cases hab
    | cons b bs =>
      rw [componentsLe_cons] at hab hba
      rcases hab with hab | ⟨rfl, hab⟩
      · rcases hba with hba | ⟨rfl, -⟩
        · exact absurd (Component.precedes_trans hab hba) (Component.not_precedes_self a)
        · exact absurd hab (Component.not_precedes_self _)
      · rcases hba with hba | ⟨-, hba⟩
        · exact absurd hba (Component.not_precedes_self _)
        · rw [ih hab hba]

/-! ## Paths -/

theorem same_symm (h : p.same q) : q.same p :=
  same_iff.mpr (same_iff.mp h).symm

theorem le_total (p q : Path) : p.le q ∨ q.le p :=
  componentsLe_total _ _

theorem le_trans (hpq : p.le q) (hqr : q.le r) : p.le r :=
  componentsLe_trans hpq hqr

theorem same_of_le_of_le (hpq : p.le q) (hqp : q.le p) : p.same q :=
  same_iff.mpr (componentsLe_antisymm hpq hqp)

/-- The path comes before the other, which has other components. -/
structure Before (p q : Path) : Prop where
  le : p.le q
  not_same : ¬p.same q

instance : Std.Irrefl Before :=
  ⟨fun _ h => h.not_same (same_iff.mpr rfl)⟩

instance : Std.Antisymm Before :=
  ⟨fun _ _ h h' => absurd (same_of_le_of_le h.le h'.le) h.not_same⟩

/-- Paths with different components are in strict order once they are sorted. -/
theorem pairwise_before_mergeSort {paths : List Path}
    (h : paths.Pairwise fun p q => ¬p.same q) : (paths.mergeSort le).Pairwise Before := by
  have hsorted : (paths.mergeSort le).Pairwise fun p q => p.le q :=
    @List.pairwise_mergeSort _ le (fun _ _ _ => le_trans)
      (fun p q => by simpa using le_total p q) paths
  have hsymm : ∀ {p q : Path}, ¬p.same q → ¬q.same p := fun hpq hqp => hpq (same_symm hqp)
  have hdistinct : (paths.mergeSort le).Pairwise fun p q => ¬p.same q :=
    h.perm (List.mergeSort_perm paths le).symm hsymm
  exact hsorted.imp₂ (fun _ _ => Before.mk) hdistinct

end RoutineLoader.Path
