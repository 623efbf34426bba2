import RoutineLoader.Proofs.RoutineHeader.Identifier
import RoutineLoader.Proofs.Text.Blank

/-!
# Create clauses and what stands around them

A clause is the same whatever follows it, if that neither goes on with the identifier nor makes the
name of a schema of it (`clauseBy?_append`), and it is the first of a text if none starts in front
of it (`firstBy?_append`).
-/

namespace RoutineLoader.RoutineHeader

variable {name? : NameReader} {text rest name front more : List Char} {c : Char}
  {kind : RoutineKind} {inWord : Bool} {found : RoutineKind × List Char}

/-! ## More behind a clause -/

/-- A word that starts a text starts it also if more follows. -/
theorem dropWord?_append {word : List Char} (h : dropWord? word text = some rest)
    (more : List Char) : dropWord? word (text ++ more) = some (rest ++ more) := by
  induction word generalizing text with
  | nil =>
    rw [dropWord?] at h ⊢
    rw [← Option.some.inj h]
  | cons a word ih =>
    cases text with
    | nil => cases h
    | cons c text =>
      rw [List.cons_append]
      rw [dropWord?] at h ⊢
      split at h
      · rename_i hletter
        rw [if_pos hletter]
        exact ih h
      · cases h

theorem dropBlanks?_append (h : dropBlanks? text = some rest) (hne : rest ≠ [])
    (more : List Char) : dropBlanks? (text ++ more) = some (rest ++ more) := by
  cases text with
  | nil => cases h
  | cons c text =>
    rw [List.cons_append]
    rw [dropBlanks?] at h ⊢
    split at h
    · rename_i hblank
      obtain rfl := Option.some.inj h
      rw [if_pos hblank, ← Text.trimStart_append hne]
    · cases h

theorem kindAndRest?_cases (h : kindAndRest? text = some (kind, rest)) :
    kind = .procedure ∧ dropWord? ['p', 'r', 'o', 'c', 'e', 'd', 'u', 'r', 'e'] text = some rest ∨
    kind = .function ∧ dropWord? ['f', 'u', 'n', 'c', 't', 'i', 'o', 'n'] text = some rest := by
  rw [kindAndRest?] at h
  split at h
  · rename_i hword
    cases h
    exact Or.inl ⟨rfl, hword⟩
  · obtain ⟨rest', hword, hpair⟩ := Option.map_eq_some_iff.mp h
    cases hpair
    exact Or.inr ⟨rfl, hword⟩

theorem kindAndRest?_append (h : kindAndRest? text = some (kind, rest)) (more : List Char) :
    kindAndRest? (text ++ more) = some (kind, rest ++ more) := by
  rcases kindAndRest?_cases h with ⟨rfl, hword⟩ | ⟨rfl, hword⟩
  · rw [kindAndRest?, dropWord?_append hword more]
  · -- No text starts with both words.
    have hother :
        dropWord? ['p', 'r', 'o', 'c', 'e', 'd', 'u', 'r', 'e'] (text ++ more) = none := by
      cases text with
      | nil => cases hword
      | cons c text =>
        rw [dropWord?] at hword
        split at hword
        · rename_i hletter
          rw [List.cons_append, dropWord?, hletter, if_neg (by decide)]
        · cases hword
    rw [kindAndRest?, hother, dropWord?_append hword more]
    rfl

theorem keyWords?_append (h : keyWords? text = some (kind, rest)) (hne : rest ≠ [])
    (more : List Char) : keyWords? (text ++ more) = some (kind, rest ++ more) := by
  simp only [keyWords?, bind, Option.bind_eq_some_iff, Option.some.injEq, Prod.mk.injEq] at h
  obtain ⟨text₁, hcreate, text₂, hblanks, ⟨kind, text₃⟩, hkind, rest, hrest, rfl, rfl⟩ := h
  have hne' : text₂ ≠ [] := by
    rintro rfl
    cases hkind
  simp only [keyWords?, bind, dropWord?_append hcreate more, dropBlanks?_append hblanks hne' more,
    kindAndRest?_append hkind more, dropBlanks?_append hrest hne more, Option.bind_some]

/-- Whether a text does not go on with the identifier in front of it, nor makes a schema of it. -/
def endsName (more : List Char) : Bool :=
  !more.head?.any (fun c => isIdentifierChar c || c == '\x60') &&
    (Text.trimStart more).head? != some '.'

theorem quoted?_append {found : List Char × List Char} (h : quoted? text = some found)
    (hmore : more.head? ≠ some '\x60') :
    quoted? (text ++ more) = some (found.1, found.2 ++ more) := by
  fun_induction quoted? text generalizing found with
  | case1 => cases h
  | case2 s ih =>
    obtain ⟨found, hfound, rfl⟩ := Option.map_eq_some_iff.mp h
    rw [List.cons_append, List.cons_append, quoted?, ih hfound]
    rfl
  | case3 s hopen =>
    cases h
    have hhead : (s ++ more).head? ≠ some '\x60' := by
      cases s with
      | nil => exact hmore
      | cons c s => exact fun hhead => hopen s (by rw [Option.some.inj hhead])
    rw [List.cons_append, quoted?_close hhead]
  | case4 c s hopen hc ih =>
    obtain ⟨found, hfound, rfl⟩ := Option.map_eq_some_iff.mp h
    rw [List.cons_append, quoted?_cons hc, ih hfound]
    rfl

theorem identifierAndRest?_append (h : identifierAndRest? text = some (name, rest))
    (hmore : endsName more) : identifierAndRest? (text ++ more) = some (name, rest ++ more) := by
  have hhead : ∀ c, more.head? = some c → isIdentifierChar c = false ∧ c ≠ '\x60' := by
    intro c hc
    simp only [endsName, hc, Option.any_some, Bool.and_eq_true, Bool.not_eq_true',
      Bool.or_eq_false_iff, beq_eq_false_iff_ne] at hmore
    exact hmore.1
  cases text with
  | nil => cases h
  | cons d text =>
    rw [identifierAndRest?] at h
    rw [List.cons_append, identifierAndRest?]
    split at h
    · rename_i hopen
      rw [if_pos hopen, quoted?_append h fun hquote => (hhead _ hquote).2 rfl]
    · rename_i hopen
      cases h
      obtain ⟨htake, hdrop⟩ := Text.span_append (p := isIdentifierChar) (d :: text)
        (Or.inr fun c hc => (hhead c hc).1)
      rw [if_neg hopen, ← List.cons_append, htake, hdrop]

theorem identifier?_append (h : identifier? text = some name) (hmore : endsName more) :
    identifier? (text ++ more) = some name := by
  simp only [identifier?, bind, Option.bind_eq_some_iff] at h
  obtain ⟨⟨name', rest⟩, hfound, hname⟩ := h
  have hdot : ((Text.trimStart (rest ++ more)).head? == some '.') =
      ((Text.trimStart rest).head? == some '.') := by
    by_cases hblank : Text.trimStart rest = []
    · have hafter : Text.trimStart (rest ++ more) = Text.trimStart more := by
        rw [Text.trimStart] at hblank
        rw [Text.trimStart, List.dropWhile_append, hblank]
        rfl
      have hnot : (Text.trimStart more).head? ≠ some '.' := by
        simp only [endsName, Bool.and_eq_true, bne_iff_ne] at hmore
        exact hmore.2
      simpa [hafter, hblank] using hnot
    · obtain ⟨c, tail, htail⟩ := List.exists_cons_of_ne_nil hblank
      rw [Text.trimStart_append hblank, htail]
      rfl
  simpa only [identifier?, bind, identifierAndRest?_append hfound hmore, Option.bind_some, hdot]
    using hname

/-- A clause is the same if more follows that leaves its name whole. -/
theorem clauseBy?_append (h : clauseBy? identifier? text = some found) (hmore : endsName more) :
    clauseBy? identifier? (text ++ more) = some found := by
  simp only [clauseBy?, bind, Option.bind_eq_some_iff] at h
  obtain ⟨⟨kind, rest⟩, hwords, name, hname, ⟨⟩⟩ := h
  have hne : rest ≠ [] := by
    rintro rfl
    cases hname
  simp only [clauseBy?, bind, keyWords?_append hwords hne more, identifier?_append hname hmore,
    Option.bind_some]

/-! ## Clauses in front -/

/-- Whether no clause starts in the front of a text, and a word may start behind it. -/
def skips (name? : NameReader) (inWord : Bool) : (front rest : List Char) → Bool
  | [], _ => !inWord
  | c :: front, rest =>
    (inWord || (clauseBy? name? (c :: (front ++ rest))).isNone) &&
      skips name? (Text.isWordChar c) front rest

/-- A clause behind a front in which none starts is the first of the text. -/
theorem firstBy?_append (h : skips name? inWord front rest)
    (hclause : clauseBy? name? rest = some found) :
    firstBy? name? inWord (front ++ rest) = some found := by
  induction front generalizing inWord with
  | nil =>
    obtain rfl : inWord = false := by simpa [skips] using h
    cases rest with
    | nil => cases hclause
    | cons c rest => simp [firstBy?, hclause]
  | cons c front ih =>
    simp only [skips, Bool.and_eq_true, Bool.or_eq_true, Option.isNone_iff_eq_none] at h
    rw [List.cons_append, firstBy?]
    rcases h.1 with hword | hnone
    · rw [hword]
      exact ih h.2
    · rw [hnone, ite_self]
      exact ih h.2

end RoutineLoader.RoutineHeader
