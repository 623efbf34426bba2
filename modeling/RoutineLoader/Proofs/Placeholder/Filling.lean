import RoutineLoader.Proofs.Placeholder.Expansion
import RoutineLoader.Proofs.Placeholder.Simultaneous
import RoutineLoader.Proofs.Placeholder.Tokens

/-!
# Tokens found and keys replaced

A source is read twice: once to find its tokens, line by line, and once to replace keys, among which
are the tokens of all its lines. `Filled` says what a line becomes if only the tokens found on that
line give way to their values, and the constants are replaced in the text between them. The second
reading comes to the same (`expands_of_expand`): where a token starts no other token does, so a
token of another line is never found in the middle of something else, and a constant has no `@`, so
it lies between the tokens.
-/

namespace RoutineLoader.Placeholder

open Substitution

variable {table : Table} {constantOf valueOf : Mapping} {line : Nat}
  {text rest front out out' key token : List Char} {cut cut' : List Piece} {s : Source}
  {replaced : SortedMap String}

/-! ## The text between tokens -/

/-- A text without `@` holds no token. -/
theorem pieces_append_of_not_mem (hfront : '@' ∉ front) (rest : List Char) :
    pieces (front ++ rest) = front.map .plain ++ pieces rest := by
  induction front with
  | nil => rfl
  | cons c front ih =>
    rw [List.mem_cons, not_or] at hfront
    have hnone : token? (c :: (front ++ rest)) = none := by
      refine Option.eq_none_iff_forall_ne_some.mpr fun found h => ?_
      obtain ⟨⟨name, suffix, htoken, -⟩, happend⟩ := token?_eq_some_iff.mp h
      rw [htoken] at happend
      exact hfront.1 (List.cons.inj happend).1
    rw [List.cons_append, pieces_of_token?_eq_none hnone, ih hfront.2, List.map_cons,
      List.cons_append]

theorem Cut.flatMap_text (h : Cut rest cut) : cut.flatMap Piece.text = rest := by
  induction h with
  | nil => rfl
  | token _ _ ih => rw [List.flatMap_cons, ih, Piece.text]
  | plain _ _ ih => rw [List.flatMap_cons, ih, Piece.text, List.singleton_append]

theorem flatMap_text_map_plain (gap : List Char) : (gap.map .plain).flatMap Piece.text = gap := by
  induction gap with
  | nil => rfl
  | cons c gap ih => rw [List.map_cons, List.flatMap_cons, ih, Piece.text, List.singleton_append]

/-! ## Filling in the tokens of a line -/

/-- A line that falls into these pieces, with the values of its tokens filled in, and with keys
replaced by the mapping in each run of characters before, between and behind the tokens. -/
inductive Filled (table : Table) (constantOf : Mapping) (line : Nat) :
    List Piece → List Char → Prop
  | last {gap out : List Char} : Replaces constantOf line gap out →
      Filled table constantOf line (gap.map .plain) out
  | token {gap out token out' : List Char} {value : String} {cut : List Piece} :
      Replaces constantOf line gap out → table.get? (String.ofList token) = some value →
      Filled table constantOf line cut out' →
      Filled table constantOf line (gap.map .plain ++ .token token :: cut)
        (out ++ (value.toList ++ out'))

/-- The characters before the first token are the first ones of the line. -/
theorem Filled.prepend (front frontOut : List Char) (h : Filled table constantOf line cut out)
    (hcut : cut.flatMap Piece.text = rest)
    (hfront : ∀ gap out, gap <+: rest → Replaces constantOf line gap out →
      Replaces constantOf line (front ++ gap) (frontOut ++ out)) :
    Filled table constantOf line (front.map .plain ++ cut) (frontOut ++ out) := by
  cases h with
  | last hgap =>
    rw [← List.map_append]
    rw [flatMap_text_map_plain] at hcut
    exact .last (hfront _ _ (hcut ▸ List.prefix_refl _) hgap)
  | @token gap out token out' value cut hgap hvalue hrest =>
    rw [List.flatMap_append, flatMap_text_map_plain] at hcut
    rw [← List.append_assoc, ← List.append_assoc, ← List.map_append]
    exact .token (hfront gap _ ⟨_, hcut⟩ hgap) hvalue hrest

/-- Pieces are cut at their first token in one way. -/
theorem map_plain_append_token_inj {gap gap' token' : List Char}
    (h : gap.map Piece.plain ++ .token token :: cut = gap'.map .plain ++ .token token' :: cut') :
    gap = gap' ∧ token = token' ∧ cut = cut' := by
  induction gap generalizing gap' with
  | nil =>
    cases gap' with
    | nil => simpa using h
    | cons c gap' => simp at h
  | cons c gap ih =>
    cases gap' with
    | nil => simp at h
    | cons c' gap' =>
      rw [List.map_cons, List.map_cons, List.cons_append, List.cons_append] at h
      obtain ⟨hc, h⟩ := List.cons.inj h
      obtain ⟨rfl, hrest⟩ := ih h
      exact ⟨by rw [Piece.plain.inj hc], hrest⟩

theorem map_plain_ne_append_token (gap gap' token : List Char) (cut : List Piece) :
    gap.map Piece.plain ≠ gap'.map .plain ++ .token token :: cut := by
  intro h
  have hmem : Piece.token token ∈ gap.map Piece.plain := by simp [h]
  simp at hmem

/-- The pieces of a line are filled in one way. -/
theorem Filled.unique (h : Filled table constantOf line cut out)
    (h' : Filled table constantOf line cut out') : out = out' := by
  induction h generalizing out' with
  | @last gap out hgap =>
    generalize hcut : gap.map Piece.plain = cut at h'
    cases h' with
    | last hgap' =>
      obtain rfl := List.map_injective_iff.mpr (fun _ _ => Piece.plain.inj) hcut
      exact hgap.unique hgap'
    | token _ _ _ => exact absurd hcut (map_plain_ne_append_token _ _ _ _)
  | @token gap out token rest value cut hgap hvalue _ ih =>
    generalize hcut : gap.map Piece.plain ++ .token token :: cut = cut' at h'
    cases h' with
    | last _ => exact absurd hcut.symm (map_plain_ne_append_token _ _ _ _)
    | token hgap' hvalue' hrest' =>
      obtain ⟨rfl, rfl, rfl⟩ := map_plain_append_token_inj hcut
      obtain rfl := Option.some.inj (hvalue.symm.trans hvalue')
      rw [hgap.unique hgap', ih hrest']

/-! ## Replacing tokens and constants at once -/

/-- What is known of the keys when a line is filled in: constants have no `@`, and the other keys
are tokens with their values in the table. -/
structure IsKeys (table : Table) (constantOf valueOf : Mapping) : Prop where
  noToken : ∀ key r, constantOf key = some r → '@' ∉ key
  isToken : ∀ key r, valueOf key = some r → IsToken key
  value : ∀ key r, valueOf key = some r →
    ∃ v, table.get? (String.ofList key) = some v ∧ r = .text v

/-- The longest of all keys is the longest of the constants, if it is one, also if less follows. -/
theorem IsLongestKey.among_constants {gap : List Char} {r : Replacement}
    (h : IsLongestKey (constantOf.over valueOf) (key ++ rest) key r)
    (hkey : constantOf key = some r) (hgap : gap <+: rest) :
    IsLongestKey constantOf (key ++ gap) key r where
  ne_nil := h.ne_nil
  value := hkey
  starts := List.prefix_append _ _
  longest := fun key' r' hvalue hstarts => by
    refine h.longest key' r' (by rw [Mapping.over, hvalue, Option.some_or]) (hstarts.trans ?_)
    exact (List.prefix_append_right_inj key).mpr hgap

/-- Where no key of all starts, no constant does, also if less follows. -/
theorem NoKey.among_constants {gap : List Char} (h : NoKey (constantOf.over valueOf) rest)
    (hgap : gap <+: rest) : NoKey constantOf gap :=
  fun key r hne hvalue hstarts =>
    h key r hne (by rw [Mapping.over, hvalue, Option.some_or]) (hstarts.trans hgap)

/-- If all tokens of a line are among the keys, then replacing the keys fills in the line. -/
theorem Filled.of_replaces (hkeys : IsKeys table constantOf valueOf)
    (h : Replaces (constantOf.over valueOf) line text out)
    (hknown : ∀ token, .token token ∈ pieces text → valueOf token ≠ none) :
    Filled table constantOf line (pieces text) out := by
  induction h with
  | nil =>
    rw [pieces]
    exact @Filled.last table constantOf line [] [] .nil
  | @key key rest put out r hlongest hput _ ih =>
    rcases Option.or_eq_some_iff.mp hlongest.value with hconstant | ⟨-, hvalue⟩
    · -- A constant lies in the text before the next token.
      rw [pieces_append_of_not_mem (hkeys.noToken key r hconstant)] at hknown ⊢
      refine (ih fun token htoken => hknown token (List.mem_append_right _ htoken)).prepend _ _
        (cut_pieces rest).flatMap_text fun gap out hgap hout => ?_
      exact .key (hlongest.among_constants hconstant hgap) hput hout
    · have hpieces : pieces (key ++ rest) = .token key :: pieces rest :=
        pieces_of_token? (token?_eq_some_iff.mpr ⟨hkeys.isToken key r hvalue, rfl⟩)
      obtain ⟨v, htable, rfl⟩ := hkeys.value key r hvalue
      obtain rfl : v.toList = put := putIn_iff.mp hput
      rw [hpieces] at hknown ⊢
      have hrest := ih fun token htoken => hknown token (List.mem_cons_of_mem _ htoken)
      exact @Filled.token table constantOf line [] [] key out v (pieces rest) .nil htable hrest
  | @copy c rest out hnone _ ih =>
    have htoken : token? (c :: rest) = none := by
      refine Option.eq_none_iff_forall_ne_some.mpr ?_
      rintro ⟨token, after⟩ h
      have hmem : .token token ∈ pieces (c :: rest) := pieces_of_token? h ▸ List.mem_cons_self
      obtain ⟨r, hvalue⟩ := Option.ne_none_iff_exists'.mp (hknown token hmem)
      have hover : ∃ r, constantOf.over valueOf token = some r := by
        rw [Mapping.over, hvalue]
        cases constantOf token with
        | none => exact ⟨r, rfl⟩
        | some r' => exact ⟨r', rfl⟩
      obtain ⟨r', hr'⟩ := hover
      refine hnone token r' ?_ hr' ⟨after, append_of_token? h⟩
      obtain ⟨name, suffix, htoken, -⟩ := isToken_of_token? h
      exact htoken ▸ List.cons_ne_nil _ _
    rw [pieces_of_token?_eq_none htoken] at hknown ⊢
    refine (ih fun token htoken => hknown token (List.mem_cons_of_mem _ htoken)).prepend [c] [c]
      (cut_pieces rest).flatMap_text fun gap out hgap hout => ?_
    exact .copy (hnone.among_constants (List.cons_prefix_cons.mpr ⟨rfl, hgap⟩)) hout

/-! ## The two readings of a source -/

/-- What a line becomes if its tokens are filled in. -/
def Expands (table : Table) (constantOf : Mapping) (line : Nat) (text out : List Char) : Prop :=
  ∃ cut, Cut text cut ∧ Filled table constantOf line cut out

theorem expands_iff_of_filled (h : Filled table constantOf line (pieces text) out) :
    Expands table constantOf line text out' ↔ out = out' := by
  constructor
  · rintro ⟨cut, hcut, hfilled⟩
    rw [← cut_iff.mp hcut] at hfilled
    exact h.unique hfilled
  · rintro rfl
    exact ⟨pieces text, cut_pieces text, h⟩

/-- The keys for a source whose tokens have been expanded. -/
theorem isKeys_of_expand (h : expand table s = .ok replaced) (file directory routine : String) :
    IsKeys table (latest (constants file directory routine)) (tokenValues replaced) where
  noToken := fun key r hkey => by
    obtain ⟨e, he, -⟩ := Option.map_eq_some_iff.mp hkey
    have hmem := List.mem_of_find?_eq_some he
    have hname : e.1 = key := by simpa using List.find?_some he
    rw [← hname]
    simp only [constants, List.reverse_cons, List.reverse_nil, List.nil_append, List.cons_append,
      List.mem_cons, List.not_mem_nil, or_false] at hmem
    rcases hmem with rfl | rfl | rfl | rfl
    · exact (by decide : '@' ∉ lineKey)
    · exact (by decide : '@' ∉ routineKey)
    · exact (by decide : '@' ∉ directoryKey)
    · exact (by decide : '@' ∉ fileKey)
  isToken := fun key r hkey => by
    obtain ⟨v, hv, -⟩ := Option.map_eq_some_iff.mp hkey
    obtain ⟨-, rfl⟩ := expand_eq_ok_iff.mp h
    rw [get?_values] at hv
    split at hv
    · rename_i hmem
      simpa using (mem_map_occurrences_iff.mp hmem).isToken
    · cases hv
  value := fun key r hkey => by
    obtain ⟨v, hv, rfl⟩ := Option.map_eq_some_iff.mp hkey
    obtain ⟨-, rfl⟩ := expand_eq_ok_iff.mp h
    rw [get?_values] at hv
    split at hv
    · exact ⟨v, hv, rfl⟩
    · cases hv

theorem tokenValues_ne_none_of_expand (h : expand table s = .ok replaced)
    (htoken : OccursIn (String.ofList token) s) : tokenValues replaced token ≠ none := by
  obtain ⟨hknown, rfl⟩ := expand_eq_ok_iff.mp h
  have hmem := mem_map_occurrences_iff.mpr htoken
  obtain ⟨o, ho, hname⟩ := List.mem_map.mp hmem
  rw [tokenValues, get?_values, if_pos hmem, ← hname]
  simpa using hknown o ho

theorem Substitution.applyFrom_eq_mapIdx (σ : Substitution) (first : Nat)
    (lines : List (List Char)) :
    σ.applyFrom first lines = lines.mapIdx fun k text => σ.applyLine (first + k) text := by
  induction lines generalizing first with
  | nil => rfl
  | cons text lines ih =>
    rw [applyFrom, ih, List.mapIdx_cons]
    simp only [Nat.add_zero, Nat.add_assoc, Nat.add_comm 1]

/-- Replacing the tokens of a source and the constants makes of every line what becomes of it if the
tokens that are found on it are filled in with their values, and the constants in the text between
them. -/
theorem expands_of_expand (h : expand table s = .ok replaced) (file directory routine : String) :
    ∃ outs, ((ofTokens replaced).withConstants file directory routine).apply s.lines =
        String.ofList (Text.joinWith ['\n'] outs) ∧
      outs.length = s.lines.length ∧
      ∀ k text, s.lines[k]? = some text → ∀ out, outs[k]? = some out ↔
        Expands table (latest (constants file directory routine)) (k + 1) text out := by
  have hkeys := isKeys_of_expand h file directory routine
  have hreplaces := (replacesBy_withConstants replaced file directory routine).replaces
  refine ⟨_, rfl, by rw [applyFrom_eq_mapIdx, List.length_mapIdx], fun k text htext out => ?_⟩
  rw [applyFrom_eq_mapIdx, List.getElem?_mapIdx, htext, Option.map_some, Option.some.injEq,
    Nat.add_comm 1 k]
  have hfilled : Filled table (latest (constants file directory routine)) (k + 1) (pieces text)
      (((ofTokens replaced).withConstants file directory routine).applyLine (k + 1) text) := by
    refine Filled.of_replaces hkeys ((hreplaces _ _ _).mpr rfl) fun token htoken => ?_
    have hmem := List.mem_of_getElem? htext
    refine tokenValues_ne_none_of_expand h ⟨text, hmem, _, cut_pieces text, ?_⟩
    rwa [String.toList_ofList]
  exact (expands_iff_of_filled hfilled).symm

/-- A source in which a token of one line stands in the middle of another, and constants inside
tokens and around them. -/
def overlapSource : Source :=
  ⟨⟨"/p.psql"⟩, "@A@B@ __LINE__\n@B@__FI@a@LE__ @__DIR__@ __DIR__\n", 0⟩

/-- The values of its tokens. -/
def overlapTable : Table :=
  .ofList [("@A@", "1"), ("@B@", "<@A@>"), ("@__DIR__@", "x")]

/-- The tokens as they are written, with their values. -/
def overlapTokens : SortedMap String :=
  .ofList [("@A@", "1"), ("@B@", "<@A@>"), ("@__DIR__@", "x"), ("@a@", "1")]

/-- The second half of `@A@B@` stays, and so do the halves of `__FILE__`. -/
theorem expands_of_expand_overlapping :
    expand overlapTable overlapSource = .ok overlapTokens ∧
      ((ofTokens overlapTokens).withConstants "f" "d" "r").apply overlapSource.lines =
        "1B@ 1\n<@A@>__FI1LE__ x d" ∧
      ∃ outs, ((ofTokens overlapTokens).withConstants "f" "d" "r").apply overlapSource.lines =
          String.ofList (Text.joinWith ['\n'] outs) ∧
        outs.length = overlapSource.lines.length ∧
        ∀ k text, overlapSource.lines[k]? = some text → ∀ out, outs[k]? = some out ↔
          Expands overlapTable (latest (constants "f" "d" "r")) (k + 1) text out := by
  have hexpand : expand overlapTable overlapSource = .ok overlapTokens := by decide +kernel
  exact ⟨hexpand, by decide +kernel, expands_of_expand hexpand "f" "d" "r"⟩

end RoutineLoader.Placeholder
