import Mathlib.Data.List.Forall2
import RoutineLoader.Placeholder.Substitution
import RoutineLoader.Proofs.Sql.Quoted

/-!
# Substitutions with other constants

Two substitutions with the same keys cut a line at the same places, since which key is replaced is a
matter of the keys only. If they put in the same everywhere but for some keys, and different
literals for those, then they make the same of a text exactly if none of those keys is replaced
there (`DifferIn.apply_eq_iff`): a literal shows its value and where it ends.
-/

namespace RoutineLoader.Placeholder.Substitution

variable {σ σ' : Substitution} {keys keys' : List (List Char)} {key text : List Char}
  {r : Replacement} {v v' : String}

/-- The keys that are replaced in a line, from left to right. -/
def replacedKeys (σ : Substitution) : List Char → List (List Char)
  | [] => []
  | c :: text =>
    match σ.match? (c :: text) with
    | some (key, _) => key :: replacedKeys σ (text.drop (key.length - 1))
    | none => replacedKeys σ text
termination_by text => text.length
decreasing_by all_goals simp +arith

/-- Two entries for one key, with different literals if it is one of `keys`, and with the same
replacement otherwise. -/
structure EntriesDiffer (keys : List (List Char)) (e e' : List Char × Replacement) : Prop where
  key : e.1 = e'.1
  same : e.1 ∉ keys → e.2 = e'.2
  differ : e.1 ∈ keys → ∃ v v', v ≠ v' ∧ e.2 = .text (Sql.literal v) ∧
    e'.2 = .text (Sql.literal v')

/-- The substitutions have the same keys, with different literals for `keys` and the same
replacements otherwise. -/
def DifferIn (keys : List (List Char)) (σ σ' : Substitution) : Prop :=
  List.Forall₂ (EntriesDiffer keys) σ.entries σ'.entries

namespace DifferIn

theorem refl (σ : Substitution) : DifferIn [] σ σ :=
  List.forall₂_same.mpr fun _ _ => ⟨rfl, fun _ => rfl, fun h => nomatch h⟩

/-- An entry that is put in both goes to the same place. -/
theorem place {l l' : List (List Char × Replacement)} {r r' : Replacement}
    (h : List.Forall₂ (EntriesDiffer keys) l l')
    (hentry : EntriesDiffer keys (key, r) (key, r')) :
    List.Forall₂ (EntriesDiffer keys) (Substitution.place key r l)
      (Substitution.place key r' l') := by
  induction h with
  | nil => exact .cons hentry .nil
  | cons hdiffer hrest ih =>
    rename_i e e' l l'
    rw [Substitution.place, Substitution.place, hdiffer.key]
    split
    · exact .cons hdiffer ih
    · exact .cons hentry (.cons hdiffer hrest)

/-- Without the entries for a key it does not matter whether these may differ. -/
theorem filter {l l' : List (List Char × Replacement)}
    (h : List.Forall₂ (EntriesDiffer keys) l l')
    (hkeys : ∀ k, k ≠ key → (k ∈ keys' ↔ k ∈ keys)) :
    List.Forall₂ (EntriesDiffer keys') (l.filter fun e => e.1 != key)
      (l'.filter fun e => e.1 != key) := by
  induction h with
  | nil => exact .nil
  | cons hdiffer hrest ih =>
    rename_i e e' l l'
    rw [List.filter_cons, List.filter_cons, hdiffer.key]
    split
    · rename_i hne
      have hmem := hkeys e.1 (hdiffer.key ▸ bne_iff_ne.mp hne)
      exact .cons ⟨hdiffer.key, fun h => hdiffer.same (mt hmem.mpr h),
        fun h => hdiffer.differ (hmem.mp h)⟩ ih
    · exact ih

theorem add {r' : Replacement} (h : DifferIn keys σ σ') (hkey : key ≠ [])
    (hkeys : ∀ k, k ≠ key → (k ∈ keys' ↔ k ∈ keys))
    (hentry : EntriesDiffer keys' (key, r) (key, r')) :
    DifferIn keys' (σ.add key r) (σ'.add key r') := by
  have hempty : ¬ key.isEmpty := by simpa using hkey
  rw [Substitution.add, Substitution.add, if_neg hempty, if_neg hempty]
  exact place (filter h hkeys) hentry

/-- Both get a literal for a key, and not the same. -/
theorem addLiteral (h : DifferIn keys σ σ') (hkey : key ≠ []) (hvalue : v ≠ v') :
    DifferIn (key :: keys) (σ.add key (.text (Sql.literal v)))
      (σ'.add key (.text (Sql.literal v'))) :=
  h.add hkey (fun _ hk => by rw [List.mem_cons, or_iff_right hk])
    ⟨rfl, fun h => absurd List.mem_cons_self h, fun _ => ⟨v, v', hvalue, rfl, rfl⟩⟩

/-- Both get the same replacement for a key. -/
theorem addSame (h : DifferIn keys σ σ') (hkey : key ≠ []) (hnot : key ∉ keys) (r : Replacement) :
    DifferIn keys (σ.add key r) (σ'.add key r) :=
  h.add hkey (fun _ _ => Iff.rfl) ⟨rfl, fun _ => rfl, fun h => absurd h hnot⟩

/-! ## What becomes of a text -/

/-- At each place the same key is found, if any. -/
theorem match?_eq (h : DifferIn keys σ σ') (text : List Char) :
    (σ.match? text = none ∧ σ'.match? text = none) ∨
      ∃ key r r', σ.match? text = some (key, r) ∧ σ'.match? text = some (key, r') ∧
        EntriesDiffer keys (key, r) (key, r') := by
  obtain ⟨entries⟩ := σ
  obtain ⟨entries'⟩ := σ'
  replace h : List.Forall₂ (EntriesDiffer keys) entries entries' := h
  unfold match?
  induction h with
  | nil => exact Or.inl ⟨rfl, rfl⟩
  | cons hdiffer hrest ih =>
    rename_i e e' l l'
    obtain ⟨key, r⟩ := e
    obtain ⟨_, r'⟩ := e'
    obtain rfl : key = _ := hdiffer.key
    rw [List.find?_cons, List.find?_cons]
    split
    · rename_i hstart
      exact Or.inr ⟨key, r, r', rfl, by rw [hstart], hdiffer⟩
    · rename_i hstart
      rw [hstart]
      exact ih

/-- Where two lines with something behind them are the same, none of `keys` was replaced. -/
theorem applyLine_append_eq_iff (h : DifferIn keys σ σ') (line : Nat) (text : List Char)
    {rest rest' : List Char} :
    σ.applyLine line text ++ rest = σ'.applyLine line text ++ rest' ↔
      (∀ key ∈ σ.replacedKeys text, key ∉ keys) ∧ rest = rest' := by
  induction text using replacedKeys.induct σ with
  | case1 => simp [applyLine, replacedKeys]
  | case2 c text key r hmatch ih =>
    rcases h.match?_eq (c :: text) with ⟨hnone, -⟩ | ⟨_, _, r', hσ, hσ', hdiffer⟩
    · rw [hmatch] at hnone
      cases hnone
    · cases hmatch.symm.trans hσ
      rw [applyLine, applyLine, replacedKeys, hσ, hσ']
      simp only [List.append_assoc, List.forall_mem_cons]
      by_cases hkey : key ∈ keys
      · obtain ⟨v, v', hvalue, rfl, rfl⟩ := hdiffer.differ hkey
        refine iff_of_false (fun heq => hvalue ?_) fun hall => hall.1.1 hkey
        exact (Sql.literal_append_inj heq).1
      · obtain rfl : r = r' := hdiffer.same hkey
        rw [List.append_cancel_left_eq, ih, and_iff_right hkey]
  | case3 c text hmatch ih =>
    rcases h.match?_eq (c :: text) with ⟨-, hnone⟩ | ⟨_, _, _, hσ, -⟩
    · rw [applyLine, applyLine, replacedKeys, hmatch, hnone]
      simpa using ih
    · rw [hmatch] at hσ
      cases hσ

/-- The texts that two substitutions make are the same exactly if none of the keys in which they
differ is replaced. -/
theorem apply_eq_iff (h : DifferIn keys σ σ') (lines : List (List Char)) :
    σ.apply lines = σ'.apply lines ↔
      ∀ text ∈ lines, ∀ key ∈ σ.replacedKeys text, key ∉ keys := by
  have hjoin : ∀ line, Text.joinWith ['\n'] (σ.applyFrom line lines) =
      Text.joinWith ['\n'] (σ'.applyFrom line lines) ↔
        ∀ text ∈ lines, ∀ key ∈ σ.replacedKeys text, key ∉ keys := by
    induction lines with
    | nil => simp [applyFrom]
    | cons text lines ih =>
      intro line
      rw [List.forall_mem_cons]
      cases lines with
      | nil =>
        have hlast : σ.applyLine line text ++ [] = σ'.applyLine line text ++ [] ↔ _ :=
          h.applyLine_append_eq_iff line text
        simpa [applyFrom, Text.joinWith] using hlast
      | cons next lines =>
        have hcons : ∀ τ : Substitution,
            Text.joinWith ['\n'] (τ.applyFrom line (text :: next :: lines)) =
              τ.applyLine line text ++
                '\n' :: Text.joinWith ['\n'] (τ.applyFrom (line + 1) (next :: lines)) := by
          simp [applyFrom, Text.joinWith]
        rw [hcons, hcons, h.applyLine_append_eq_iff, List.cons_inj_right, ih]
  rw [apply, apply, String.ofList_inj]
  exact hjoin 1

end DifferIn

end RoutineLoader.Placeholder.Substitution
