import Mathlib.Data.List.Basic
import RoutineLoader.Proofs.Text.Blank
import RoutineLoader.Proofs.Text.Line
import RoutineLoader.Source

/-!
# The directives of a source

`IsDirective` is the form of a directive line, and `argumentsOf?` finds the arguments of exactly
these lines (`argumentsOf?_eq_some_iff`): a name starts with no blank, so there is one way to tell
the blanks before it from the name. `IsHeader` says which lines stand above the body, and
`StandsOn` on which of them a directive stands; `find` lists these, from the top down
(`mem_find_iff`, `pairwise_find`).
-/

namespace RoutineLoader

/-! ## The header -/

/-- The lines of a source above the first one that reads `begin`, blanks aside. -/
def Source.IsHeader (s : Source) (header : List (List Char)) : Prop :=
  ∃ opening after, s.lines = header ++ opening :: after ∧
    Text.trim opening = "begin".toList ∧ ∀ line ∈ header, Text.trim line ≠ "begin".toList

theorem Source.opensBody_iff {line : List Char} :
    opensBody line ↔ Text.trim line = "begin".toList :=
  beq_iff_eq

theorem Source.header?_eq_some_iff {s : Source} {header : List (List Char)} :
    s.header? = some header ↔ s.IsHeader header := by
  rw [header?, Option.map_eq_some_iff]
  simp only [bodyLine?, List.findIdx?_eq_some_iff_getElem, IsHeader, ne_eq,
    ← opensBody_iff]
  constructor
  · rintro ⟨i, ⟨hi, hopens, hnone⟩, rfl⟩
    refine ⟨s.lines[i], s.lines.drop (i + 1), ?_, hopens, fun line hline => ?_⟩
    · rw [← List.drop_eq_getElem_cons hi, List.take_append_drop]
    · obtain ⟨j, hj, rfl⟩ := List.mem_iff_getElem.mp hline
      rw [List.length_take] at hj
      rw [List.getElem_take]
      exact hnone j (by omega)
  · rintro ⟨opening, after, hlines, hopens, hnone⟩
    refine ⟨header.length, ⟨by simp [hlines], ?_, fun j hj => ?_⟩, by simp [hlines]⟩
    · simpa [hlines] using hopens
    · simp only [hlines, List.getElem_append_left hj]
      exact hnone _ (List.getElem_mem hj)

theorem Source.header?_eq_none_iff {s : Source} :
    s.header? = none ↔ ∀ line ∈ s.lines, Text.trim line ≠ "begin".toList := by
  simp only [header?, Option.map_eq_none_iff, bodyLine?, List.findIdx?_eq_none_iff, ne_eq,
    ← opensBody_iff, Bool.not_eq_true]

namespace Directive

open Text

variable {name line arguments : List Char} {lines : List (List Char)} {first : Nat}
  {found : Nat × List Char}

/-! ## The form of a directive -/

/-- A line is a directive with these arguments: perhaps blanks, `--`, blanks, the name with a colon,
and the arguments. -/
def IsDirective (name arguments line : List Char) : Prop :=
  ∃ before gap, allBlank before ∧ allBlank gap ∧ gap ≠ [] ∧
    line = before ++ ("--".toList ++ (gap ++ (name ++ (':' :: arguments))))

/-- The arguments of the directives of a name are found, and no others. -/
theorem argumentsOf?_eq_some_iff (hname : ∃ c rest, name = c :: rest ∧ isBlank c = false) :
    argumentsOf? name line = some arguments ↔ IsDirective name arguments line := by
  obtain ⟨c, rest, rfl, hc⟩ := hname
  constructor
  · intro h
    unfold argumentsOf? at h
    split at h
    · rename_i d after hdashes
      split at h
      · rename_i hblank
        obtain ⟨before, hbefore, hline⟩ := exists_append_trimStart line
        obtain ⟨gap, hgap, hafter⟩ := exists_append_trimStart after
        refine ⟨before, d :: gap, hbefore, ?_, List.cons_ne_nil _ _, ?_⟩
        · rw [allBlank, List.all_cons, hblank]
          exact hgap
        · rw [hline, eq_append_of_dropStart? hdashes, hafter, eq_append_of_dropStart? h]
          simp
      · cases h
    · cases h
  · rintro ⟨before, gap, hbefore, hgap, hne, rfl⟩
    obtain ⟨d, gap, rfl⟩ := List.exists_cons_of_ne_nil hne
    rw [allBlank, List.all_cons, Bool.and_eq_true] at hgap
    have hstart : trimStart (gap ++ c :: (rest ++ ':' :: arguments)) =
        c :: (rest ++ [':']) ++ arguments := by
      rw [trimStart_append_of_allBlank hgap.2, trimStart_cons_of_not_isBlank hc]
      simp
    rw [argumentsOf?, trimStart_append_of_allBlank hbefore]
    simp only [String.reduceToList, List.cons_append, List.nil_append]
    rw [trimStart_cons_of_not_isBlank (by decide)]
    simp only [dropStart?, if_true, hgap.1]
    rw [hstart, dropStart?_append]

/-- A directive does not open the body. -/
theorem IsDirective.trim_ne (h : IsDirective name arguments line) :
    trim line ≠ "begin".toList := by
  obtain ⟨before, gap, hbefore, -, -, rfl⟩ := h
  have hdash : isBlank '-' = false := by decide
  rw [trim, trimStart_append_of_allBlank hbefore]
  simp only [String.reduceToList, List.cons_append]
  rw [trimStart_cons_of_not_isBlank hdash, trimEnd_cons, if_neg (by simp [hdash])]
  simp

/-- The directive with a space in front of its name and of its arguments. -/
def written (name arguments : List Char) : List Char :=
  ['-', '-', ' '] ++ (name ++ (':' :: ' ' :: arguments))

theorem isDirective_written (name arguments : List Char) :
    IsDirective name (' ' :: arguments) (written name arguments) :=
  ⟨[], [' '], rfl, rfl, List.cons_ne_nil _ _, by simp [written]⟩

/-- Arguments that end without a blank end their line. -/
theorem isLine_written (hname : '\n' ∉ name) (hfeed : '\n' ∉ arguments) (hne : arguments ≠ [])
    (hlast : ∀ c, arguments.getLast? = some c → isBlank c = false) :
    IsLine (written name arguments) := by
  refine ⟨by simp [written, hname, hfeed], fun hreturn => ?_⟩
  have hline : written name arguments =
      ['-', '-', ' '] ++ name ++ [':', ' '] ++ arguments := by
    simp [written]
  rw [hline, List.getLast?_append_of_ne_nil _ hne] at hreturn
  exact absurd (hlast _ hreturn) (by decide)

/-! ## The directives of a header -/

/-- A directive with these arguments stands on a line; lines count from zero. -/
def StandsOn (name : List Char) (lines : List (List Char)) (n : Nat) (arguments : List Char) :
    Prop :=
  ∃ line, lines[n]? = some line ∧ IsDirective name arguments line

theorem mem_findFrom_iff (hname : ∃ c rest, name = c :: rest ∧ isBlank c = false) :
    found ∈ findFrom name first lines ↔
      first ≤ found.1 ∧ StandsOn name lines (found.1 - first) found.2 := by
  induction lines generalizing first with
  | nil => simp [findFrom, StandsOn]
  | cons text lines ih =>
    -- A line is this one or one further down.
    have hcons : (first ≤ found.1 ∧ StandsOn name (text :: lines) (found.1 - first) found.2) ↔
        (found.1 = first ∧ IsDirective name found.2 text) ∨
          (first + 1 ≤ found.1 ∧ StandsOn name lines (found.1 - (first + 1)) found.2) := by
      rcases Nat.lt_trichotomy found.1 first with hlt | heq | hgt
      · simp only [show ¬ first ≤ found.1 by omega, show ¬ found.1 = first by omega,
          show ¬ first + 1 ≤ found.1 by omega, false_and, or_self]
      · simp [StandsOn, heq, show ¬ first + 1 ≤ first by omega]
      · simp only [StandsOn, show found.1 - first = found.1 - (first + 1) + 1 by omega,
          List.getElem?_cons_succ, show first ≤ found.1 by omega, true_and,
          show ¬ found.1 = first by omega, false_and, false_or, show first + 1 ≤ found.1 by omega]
    rw [hcons, ← ih, findFrom]
    cases harguments : argumentsOf? name text with
    | none =>
      have hnot : ¬ IsDirective name found.2 text := fun h => by
        rw [(argumentsOf?_eq_some_iff hname).mpr h] at harguments
        cases harguments
      simp [hnot]
    | some arguments =>
      rw [List.mem_cons]
      refine or_congr_left ⟨?_, ?_⟩
      · rintro rfl
        exact ⟨rfl, (argumentsOf?_eq_some_iff hname).mp harguments⟩
      · rintro ⟨hline, hdirective⟩
        rw [(argumentsOf?_eq_some_iff hname).mpr hdirective] at harguments
        exact Prod.ext hline (Option.some.inj harguments)

/-- The directives that are listed are those that stand somewhere, under the line's number. -/
theorem mem_find_iff (hname : ∃ c rest, name = c :: rest ∧ isBlank c = false) :
    found ∈ find name lines ↔ ∃ n, found.1 = n + 1 ∧ StandsOn name lines n found.2 := by
  rw [find, mem_findFrom_iff hname]
  constructor
  · rintro ⟨hle, hstands⟩
    exact ⟨found.1 - 1, by omega, hstands⟩
  · rintro ⟨n, hn, hstands⟩
    exact ⟨by omega, by rwa [hn, Nat.add_sub_cancel]⟩

theorem pairwise_findFrom (hname : ∃ c rest, name = c :: rest ∧ isBlank c = false) (first : Nat)
    (lines : List (List Char)) :
    (findFrom name first lines).Pairwise fun a b => a.1 < b.1 := by
  induction lines generalizing first with
  | nil => exact .nil
  | cons text lines ih =>
    rw [findFrom]
    split
    · exact .cons (fun found hfound => ((mem_findFrom_iff hname).mp hfound).1) (ih _)
    · exact ih _

/-- The directives are listed from the top down. -/
theorem pairwise_find (hname : ∃ c rest, name = c :: rest ∧ isBlank c = false)
    (lines : List (List Char)) : (find name lines).Pairwise fun a b => a.1 < b.1 :=
  pairwise_findFrom hname 1 lines

/-- The directives of a name in some lines, from the top down: line number, which counts from one,
and arguments. -/
def Lists (name : List Char) (lines : List (List Char)) (found : List (Nat × List Char)) : Prop :=
  (found.Pairwise fun a b => a.1 < b.1) ∧
    ∀ a, a ∈ found ↔ ∃ n, a.1 = n + 1 ∧ StandsOn name lines n a.2

theorem lists_find (hname : ∃ c rest, name = c :: rest ∧ isBlank c = false)
    (lines : List (List Char)) : Lists name lines (find name lines) :=
  ⟨pairwise_find hname lines, fun _ => mem_find_iff hname⟩

theorem map_snd_findFrom (name : List Char) (first : Nat) (lines : List (List Char)) :
    (findFrom name first lines).map Prod.snd = lines.filterMap (argumentsOf? name) := by
  induction lines generalizing first with
  | nil => rfl
  | cons text lines ih =>
    rw [findFrom, List.filterMap_cons]
    cases argumentsOf? name text with
    | none => exact ih _
    | some arguments => exact congrArg (arguments :: ·) (ih _)

theorem find_eq_nil_iff (hname : ∃ c rest, name = c :: rest ∧ isBlank c = false) :
    find name lines = [] ↔ ∀ n arguments, ¬ StandsOn name lines n arguments := by
  simp only [List.eq_nil_iff_forall_not_mem, mem_find_iff hname]
  constructor
  · exact fun h n arguments hstands => h (n + 1, arguments) ⟨n, rfl, hstands⟩
  · rintro h _ ⟨n, -, hstands⟩
    exact h n _ hstands

theorem find_eq_singleton (hname : ∃ c rest, name = c :: rest ∧ isBlank c = false) {n : Nat}
    (hstands : StandsOn name lines n arguments)
    (honly : ∀ m other, StandsOn name lines m other → m = n) :
    find name lines = [(n + 1, arguments)] := by
  have hmem : (n + 1, arguments) ∈ find name lines := (mem_find_iff hname).mpr ⟨n, rfl, hstands⟩
  have hnumber : ∀ found ∈ find name lines, found.1 = n + 1 := by
    intro found hfound
    obtain ⟨m, hm, hstands⟩ := (mem_find_iff hname).mp hfound
    rw [hm, honly m _ hstands]
  have hsorted := pairwise_find hname lines
  match hfind : find name lines, hmem, hnumber, hsorted with
  | [found], hmem, _, _ => rw [List.mem_singleton.mp hmem]
  | first :: second :: rest, _, hnumber, hsorted =>
    have hlt := List.rel_of_pairwise_cons hsorted List.mem_cons_self
    have hfirst := hnumber first List.mem_cons_self
    have hsecond := hnumber second (List.mem_cons_of_mem _ List.mem_cons_self)
    omega

/-- A directive with these arguments stands on a line, and none of the name on another. -/
def StandsAlone (name : List Char) (lines : List (List Char)) (n : Nat) (arguments : List Char) :
    Prop :=
  StandsOn name lines n arguments ∧ ∀ m other, StandsOn name lines m other → m = n

theorem find_eq_singleton_iff (hname : ∃ c rest, name = c :: rest ∧ isBlank c = false) {n : Nat} :
    find name lines = [(n + 1, arguments)] ↔ StandsAlone name lines n arguments := by
  refine ⟨fun hfind => ?_, fun h => find_eq_singleton hname h.1 h.2⟩
  have hmem : ∀ found, found ∈ find name lines ↔ _ := fun _ => mem_find_iff hname
  simp only [hfind, List.mem_singleton] at hmem
  obtain ⟨m, hm, hstands⟩ := (hmem (n + 1, arguments)).mp rfl
  refine ⟨Nat.succ.inj hm ▸ hstands, fun k other hother => ?_⟩
  exact Nat.succ.inj (congrArg Prod.fst ((hmem (k + 1, other)).mpr ⟨k, rfl, hother⟩))

/-- If directives stand on two lines and above the lower one on no other, these are listed first. -/
theorem find_eq_cons_cons (hname : ∃ c rest, name = c :: rest ∧ isBlank c = false)
    {n m : Nat} {other : List Char} (hlt : n < m) (hfirst : StandsOn name lines n arguments)
    (hsecond : StandsOn name lines m other)
    (honly : ∀ k more, k < m → StandsOn name lines k more → k = n) :
    ∃ a b rest, find name lines = (n + 1, a) :: (m + 1, b) :: rest := by
  have hn : (n + 1, arguments) ∈ find name lines := (mem_find_iff hname).mpr ⟨n, rfl, hfirst⟩
  have hm : (m + 1, other) ∈ find name lines := (mem_find_iff hname).mpr ⟨m, rfl, hsecond⟩
  have hnumber : ∀ found ∈ find name lines, found.1 < m + 1 → found.1 = n + 1 := by
    intro found hfound hbelow
    obtain ⟨k, hk, hstands⟩ := (mem_find_iff hname).mp hfound
    rw [hk, honly k _ (by omega) hstands]
  have hsorted := pairwise_find hname lines
  match hfind : find name lines, hn, hm, hnumber, hsorted with
  | [found], hn, hm, _, _ =>
    have heq := (List.mem_singleton.mp hn).trans (List.mem_singleton.mp hm).symm
    have := congrArg Prod.fst heq
    omega
  | (k, a) :: (k', b) :: rest, hn, hm, hnumber, hsorted =>
    obtain ⟨hhead, htail⟩ := List.pairwise_cons.mp hsorted
    have hkk : k < k' := hhead (k', b) List.mem_cons_self
    -- The first number is at most that of the upper line, so it is this one.
    have hk : k = n + 1 := by
      rcases List.mem_cons.mp hn with heq | hn
      · exact (congrArg Prod.fst heq).symm
      · have hkn : k < n + 1 := hhead _ hn
        exact hnumber (k, a) List.mem_cons_self (by dsimp only; omega)
    have hk' : k' = m + 1 := by
      rcases List.mem_cons.mp hm with heq | hm
      · have := congrArg Prod.fst heq
        dsimp only at this
        omega
      rcases List.mem_cons.mp hm with heq | hm
      · exact (congrArg Prod.fst heq).symm
      · have hbelow : k' < m + 1 := List.rel_of_pairwise_cons htail hm
        have := hnumber (k', b) (List.mem_cons_of_mem _ List.mem_cons_self) hbelow
        dsimp only at this
        omega
    exact ⟨a, b, rest, by rw [hk, hk']⟩

end Directive

end RoutineLoader
