import RoutineLoader.Placeholder.Expansion

/-!
# Where tokens stand

`IsToken` is the form of a token, and a text starts with one exactly if `token?` finds it there
(`token?_eq_some_iff`): no token is the start of another, so there is never a choice. `Cut` says how
a line falls into tokens and other characters when it is read from left to right, and every line
falls into its `pieces` in this way and in no other (`cut_iff`). `OccursIn` is what it is for a
token to stand in a source.
-/

namespace RoutineLoader.Placeholder

variable {s token rest line : List Char} {cut : List Piece}

/-! ## The form of a token -/

/-- What may stand between the name of a token and its last character: nothing, or `%type` in any
case. -/
def IsSuffix (suffix : List Char) : Prop :=
  suffix = [] ∨ ∃ word, suffix = '%' :: word ∧ word.map Char.toLower = ['t', 'y', 'p', 'e']

/-- A token: `@`, a name, perhaps `%type`, and `@`. -/
def IsToken (token : List Char) : Prop :=
  ∃ name suffix, token = '@' :: (name ++ suffix ++ ['@']) ∧ name ≠ [] ∧
    (∀ c ∈ name, isNameChar c) ∧ IsSuffix suffix

/-- The name and the suffix of a token are found, whatever follows the token. -/
theorem nameAndRest_append {name suffix : List Char} (hname : ∀ c ∈ name, isNameChar c)
    (hsuffix : IsSuffix suffix) (rest : List Char) :
    nameAndRest (name ++ (suffix ++ '@' :: rest)) = (name ++ suffix, '@' :: rest) := by
  have hat : isNameChar '@' = false := by decide
  have hpercent : isNameChar '%' = false := by decide
  unfold nameAndRest
  rw [List.takeWhile_append_of_pos hname, List.dropWhile_append_of_pos hname]
  rcases hsuffix with rfl | ⟨word, rfl, hword⟩
  · simp [hat]
  · have hlength := congrArg List.length hword
    rw [List.length_map] at hlength
    match word, hlength with
    | [t, y, p, e], _ => simp [hpercent, hword]

theorem isToken_of_token? (h : token? s = some (token, rest)) : IsToken token := by
  unfold token? at h
  split at h
  · rename_i s'
    split at h
    · rename_i c name rest' heq
      split at h
      · rename_i hc
        obtain ⟨rfl, rfl⟩ := Prod.mk.inj (Option.some.inj h)
        have htake : ∀ x ∈ s'.takeWhile isNameChar, isNameChar x := fun x hx =>
          List.all_eq_true.mp (List.all_takeWhile (p := isNameChar) (l := s')) x hx
        -- The name is the run of name characters, with the suffix behind it or without.
        have hsplit : ∃ suffix, c :: name = s'.takeWhile isNameChar ++ suffix ∧
            IsSuffix suffix := by
          unfold nameAndRest at heq
          split at heq
          · rename_i t y p e after hdrop
            dsimp only at heq
            split at heq
            · rename_i hword
              exact ⟨_, (Prod.mk.inj heq).1.symm, Or.inr ⟨_, rfl, hword⟩⟩
            · exact ⟨[], by simpa using (Prod.mk.inj heq).1.symm, Or.inl rfl⟩
          · exact ⟨[], by simpa using (Prod.mk.inj heq).1.symm, Or.inl rfl⟩
        obtain ⟨suffix, hsplit, hsuffix⟩ := hsplit
        refine ⟨s'.takeWhile isNameChar, suffix, by simp [← hsplit], fun hnil => ?_, htake,
          hsuffix⟩
        -- Without a name the token would start with `%`, which is no name character.
        rw [hnil, List.nil_append] at hsplit
        rcases hsuffix with rfl | ⟨word, rfl, -⟩
        · cases hsplit
        · obtain rfl := (List.cons.inj hsplit).1
          exact absurd hc (by decide)
      · cases h
    · cases h
  · cases h

/-- A text starts with a token exactly if one is found there. -/
theorem token?_eq_some_iff :
    token? s = some (token, rest) ↔ IsToken token ∧ token ++ rest = s := by
  constructor
  · exact fun h => ⟨isToken_of_token? h, append_of_token? h⟩
  · rintro ⟨⟨name, suffix, rfl, hne, hname, hsuffix⟩, rfl⟩
    obtain ⟨c, name, rfl⟩ := List.exists_cons_of_ne_nil hne
    have hfound := nameAndRest_append hname hsuffix rest
    simp only [List.cons_append, List.append_assoc, List.nil_append] at hfound ⊢
    rw [token?, hfound]
    simp [hname c List.mem_cons_self]

/-! ## The pieces of a line -/

/-- How a line falls into tokens and other characters, read from left to right. -/
inductive Cut : List Char → List Piece → Prop
  | nil : Cut [] []
  | token {token rest : List Char} {cut : List Piece} :
      IsToken token → Cut rest cut → Cut (token ++ rest) (.token token :: cut)
  | plain {c : Char} {rest : List Char} {cut : List Piece} :
      (∀ token after, IsToken token → token ++ after ≠ c :: rest) → Cut rest cut →
      Cut (c :: rest) (.plain c :: cut)

theorem pieces_of_token? (h : token? s = some (token, rest)) :
    pieces s = .token token :: pieces rest := by
  cases s with
  | nil => cases h
  | cons c s =>
    rw [pieces]
    split
    · rename_i heq
      rw [h] at heq
      cases heq
      rfl
    · rename_i heq
      rw [h] at heq
      cases heq

theorem pieces_of_token?_eq_none {c : Char} (h : token? (c :: s) = none) :
    pieces (c :: s) = .plain c :: pieces s := by
  rw [pieces]
  split
  · rename_i heq
    rw [h] at heq
    cases heq
  · rfl

theorem cut_pieces (line : List Char) : Cut line (pieces line) := by
  induction line using pieces.induct with
  | case1 =>
    rw [pieces]
    exact .nil
  | case2 c s token rest h ih =>
    rw [pieces_of_token? h]
    obtain ⟨htoken, happend⟩ := token?_eq_some_iff.mp h
    exact happend ▸ .token htoken ih
  | case3 c s h ih =>
    rw [pieces_of_token?_eq_none h]
    refine .plain (fun token after htoken happend => ?_) ih
    rw [token?_eq_some_iff.mpr ⟨htoken, happend⟩] at h
    cases h

/-- A line falls into its pieces and in no other way. -/
theorem cut_iff : Cut line cut ↔ pieces line = cut := by
  constructor
  · intro h
    induction h with
    | nil => rw [pieces]
    | token htoken _ ih => rw [pieces_of_token? (token?_eq_some_iff.mpr ⟨htoken, rfl⟩), ih]
    | @plain c rest _ hnone _ ih =>
      have hfound : token? (c :: rest) = none := by
        refine Option.eq_none_iff_forall_ne_some.mpr fun found h => ?_
        obtain ⟨htoken, happend⟩ := token?_eq_some_iff.mp h
        exact hnone _ _ htoken happend
      rw [pieces_of_token?_eq_none hfound, ih]
  · rintro rfl
    exact cut_pieces line

theorem Cut.isToken (h : Cut line cut) (hmem : .token token ∈ cut) : IsToken token := by
  induction h with
  | nil => cases hmem
  | token htoken _ ih =>
    rcases List.mem_cons.mp hmem with heq | hmem
    · cases heq
      exact htoken
    · exact ih hmem
  | plain _ _ ih =>
    rcases List.mem_cons.mp hmem with heq | hmem
    · cases heq
    · exact ih hmem

/-! ## The tokens of a source -/

/-- A token stands on a line of the source. -/
def OccursIn (token : String) (s : Source) : Prop :=
  ∃ line ∈ s.lines, ∃ cut, Cut line cut ∧ .token token.toList ∈ cut

theorem OccursIn.isToken {token : String} {s : Source} (h : OccursIn token s) :
    IsToken token.toList := by
  obtain ⟨line, -, cut, hcut, hmem⟩ := h
  exact hcut.isToken hmem

theorem map_token_tokensFrom (column : Nat) (cut : List Piece) :
    ∀ token, token ∈ (tokensFrom column cut).map Found.token ↔ .token token ∈ cut := by
  induction cut generalizing column with
  | nil => simp [tokensFrom]
  | cons piece cut ih => cases piece <;> simp [tokensFrom, ih]

theorem mem_map_token_occurrencesFrom (n : Nat) (lines : List (List Char)) (token : String) :
    token ∈ (occurrencesFrom n lines).map Occurrence.token ↔
      ∃ line ∈ lines, .token token.toList ∈ pieces line := by
  induction lines generalizing n with
  | nil => simp [occurrencesFrom]
  | cons line lines ih =>
    have hline : token ∈ ((tokens line).map fun found =>
        (⟨n, found.column, String.ofList found.token, line⟩ : Occurrence)).map Occurrence.token ↔
          .token token.toList ∈ pieces line := by
      rw [← map_token_tokensFrom 0, List.map_map, List.mem_map, List.mem_map]
      exact exists_congr fun found => and_congr_right fun _ =>
        ⟨fun h => by simp [← h], fun h => by simp [h]⟩
    rw [occurrencesFrom, List.map_append, List.mem_append, hline, ih]
    simp

/-- The tokens that are found in a source are those that stand on its lines. -/
theorem mem_map_occurrences_iff {token : String} {s : Source} :
    token ∈ (occurrences s).map Occurrence.token ↔ OccursIn token s := by
  rw [occurrences, mem_map_token_occurrencesFrom, OccursIn]
  simp [cut_iff]

end RoutineLoader.Placeholder
