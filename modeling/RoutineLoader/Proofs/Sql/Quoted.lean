import RoutineLoader.Database.Catalog

/-!
# Quoted values and names are told apart

Inside quotes every character has a form with which no other form can start (`PrefixFree`), so a
quoted text can be read back from its start: values whose literals start the same text are the same
(`literal_append_inj`), and so are names that are quoted in the same way (`identifier_inj`).
-/

namespace RoutineLoader.Sql

/-- No text starts with the forms of two characters. -/
def PrefixFree (form : Char → List Char) : Prop :=
  ∀ a b s t, form a ++ s = form b ++ t → a = b

/-- Characters in such forms are told from the text alone, if what follows them starts with no
form. -/
theorem PrefixFree.flatMap_append_inj {form : Char → List Char} (hform : PrefixFree form)
    {cs cs' rest rest' : List Char} (hrest : ∀ c s, form c ++ s ≠ rest)
    (hrest' : ∀ c s, form c ++ s ≠ rest')
    (h : cs.flatMap form ++ rest = cs'.flatMap form ++ rest') : cs = cs' ∧ rest = rest' := by
  induction cs generalizing cs' with
  | nil =>
    cases cs' with
    | nil => exact ⟨rfl, h⟩
    | cons c cs' =>
      rw [List.flatMap_cons, List.append_assoc] at h
      exact absurd h.symm (hrest c _)
  | cons c cs ih =>
    cases cs' with
    | nil =>
      rw [List.flatMap_cons, List.append_assoc] at h
      exact absurd h (hrest' c _)
    | cons c' cs' =>
      rw [List.flatMap_cons, List.flatMap_cons, List.append_assoc, List.append_assoc] at h
      obtain rfl := hform c c' _ _ h
      obtain ⟨rfl, hrests⟩ := ih (List.append_cancel_left h)
      exact ⟨rfl, hrests⟩

/-! ## Literals -/

/-- The character that another one stands for behind a backslash. -/
def unescape (e : Char) : Char :=
  if e = '0' then '\x00'
  else if e = 'n' then '\n'
  else if e = 'r' then '\r'
  else if e = 'Z' then '\x1a'
  else e

/-- A character stands for itself, or is told by another one behind a backslash. -/
theorem escapeChar_cases (c : Char) :
    escapeChar c = [c] ∧ c ≠ '\\' ∧ c ≠ '\'' ∨ ∃ e, escapeChar c = ['\\', e] ∧ c = unescape e := by
  unfold escapeChar
  iterate 6
    split
    · rename_i hc
      exact Or.inr ⟨_, rfl, hc⟩
  rename_i hquote hslash _ _ _ _
  exact Or.inl ⟨rfl, hslash, hquote⟩

theorem prefixFree_escapeChar : PrefixFree escapeChar := by
  intro a b s t h
  rcases escapeChar_cases a with ⟨ha, hslash, -⟩ | ⟨e, ha, hea⟩ <;>
    rcases escapeChar_cases b with ⟨hb, hslash', -⟩ | ⟨e', hb, heb⟩ <;>
    rw [ha, hb] at h
  · exact (List.cons.inj h).1
  · exact absurd (List.cons.inj h).1 hslash
  · exact absurd (List.cons.inj h).1.symm hslash'
  · obtain rfl : e = e' := (List.cons.inj (List.cons.inj h).2).1
    rw [hea, heb]

/-- No character of a value can be taken for the quote that ends its literal. -/
theorem escapeChar_append_ne (c : Char) (s rest : List Char) :
    escapeChar c ++ s ≠ '\'' :: rest := by
  intro h
  rcases escapeChar_cases c with ⟨hc, -, hquote⟩ | ⟨e, hc, -⟩
  · rw [hc] at h
    exact hquote (List.cons.inj h).1
  · rw [hc] at h
    exact absurd (List.cons.inj h).1 (by decide)

/-- A literal stands on one line. -/
theorem lineEnd_not_mem_literal {c : Char} (hc : c = '\n' ∨ c = '\r') (value : String) :
    c ∉ (literal value).toList := by
  have hescape : ∀ d, c ∉ escapeChar d := by
    intro d
    unfold escapeChar
    rcases hc with rfl | rfl
    all_goals
      repeat' split
      all_goals simp_all [eq_comm]
  have hquote : c ≠ '\'' := by rcases hc with rfl | rfl <;> decide
  simp [literal, hescape, hquote]

/-- Texts that start with literals and are the same start with the literal of the same value. -/
theorem literal_append_inj {v w : String} {rest rest' : List Char}
    (h : (literal v).toList ++ rest = (literal w).toList ++ rest') : v = w ∧ rest = rest' := by
  simp only [literal, String.toList_ofList, List.cons_append, List.append_assoc,
    List.nil_append, List.cons.injEq, true_and] at h
  obtain ⟨hvalue, hrest⟩ := prefixFree_escapeChar.flatMap_append_inj
    (fun c s => escapeChar_append_ne c s _) (fun c s => escapeChar_append_ne c s _) h
  exact ⟨String.toList_injective hvalue, (List.cons.inj hrest).2⟩

/-! ## Names -/

theorem prefixFree_doubleBacktick : PrefixFree doubleBacktick := by
  intro a b s t h
  unfold doubleBacktick at h
  split at h <;> split at h
  · rename_i ha hb
    rw [ha, hb]
  · rename_i ha hb
    exact absurd (List.cons.inj h).1.symm hb
  · rename_i ha hb
    exact absurd (List.cons.inj h).1 ha
  · exact (List.cons.inj h).1

/-- Names that are quoted in the same way are the same. -/
theorem identifier_inj {name name' : String} (h : identifier name = identifier name') :
    name = name' := by
  have hend : ∀ c s, doubleBacktick c ++ s ≠ ['\x60'] := by
    intro c s heq
    unfold doubleBacktick at heq
    split at heq
    · cases heq
    · rename_i hc
      exact hc (List.cons.inj heq).1
  have hlist := congrArg String.toList h
  simp only [identifier, String.toList_ofList, List.cons_append, List.cons.injEq,
    true_and] at hlist
  exact String.toList_injective (prefixFree_doubleBacktick.flatMap_append_inj hend hend hlist).1

end RoutineLoader.Sql
