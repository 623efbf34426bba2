import Mathlib.Data.List.Nodup
import Mathlib.Data.Set.List
import RoutineLoader.Proofs.Directive
import RoutineLoader.Proofs.Designation.Grammar
import RoutineLoader.Proofs.ReturnType
import RoutineLoader.Proofs.Text.Words

/-!
# The words of a union

`wordsOf` lists what stands between the bars of a union, blanks aside. A text is read exactly if
each of its words names a type, and the members are then the distinct words in the order of their
first mention (`parse_eq_ok_iff`). The form that a directive asks for adds nothing to that
(`isUnion_of_parse`), so a directive is read as its text is (`ofArguments_eq_ok_iff`). Whether it is
read, and the verdict over the return type, depend on the set of the words alone
(`verdict_of_words`).
-/

namespace RoutineLoader

/-- The same fault of another union. -/
def ReturnTypeFault.about (r : ReturnType) : ReturnTypeFault → ReturnTypeFault
  | forbidden _ => forbidden r
  | withoutNull _ => withoutNull r
  | fault => fault

theorem ScalarType.ofWord?_eq_some_iff {word : String} {t : ScalarType} :
    ofWord? word = some t ↔ t.word = word := by
  constructor
  · intro h
    unfold ofWord? at h
    split at h <;> cases h <;> rfl
  · rintro rfl
    exact ofWord?_word t

theorem ScalarType.word_injective : Function.Injective ScalarType.word := fun t t' h =>
  Option.some.inj ((ofWord?_word t).symm.trans (h ▸ ofWord?_word t'))

namespace ReturnType

open Text

variable {s s' : Source} {d : Designation} {r r' : ReturnType} {u u' : List Char}

/-! ## Reading words -/

/-- The words of a union: what stands between the bars, without the blanks around it. -/
def wordsOf (union : List Char) : List String :=
  (splitOn '|' union).map fun piece => String.ofList (trim piece)

theorem distinct_filter (p : ScalarType → Bool) (l : List ScalarType) :
    distinct (l.filter p) = (distinct l).filter p := by
  induction l with
  | nil => rfl
  | cons t l ih =>
    cases ht : p t with
    | true =>
      rw [List.filter_cons_of_pos ht, distinct, distinct, ih, List.filter_cons_of_pos ht,
        List.filter_filter, List.filter_filter]
      simp only [Bool.and_comm]
    | false =>
      have hnot : ∀ t' ∈ distinct l, p t' = (p t' && decide (t' ≠ t)) := fun t' _ => by
        by_cases h : t' = t <;> simp [h, ht]
      rw [List.filter_cons_of_neg (by simp [ht]), distinct, ih,
        List.filter_cons_of_neg (by simp [ht]), List.filter_filter]
      exact List.filter_congr hnot

/-- Dropping repeated types drops repeated words. -/
theorem map_word_distinct :
    ∀ l, (distinct l).map ScalarType.word = (l.map ScalarType.word).eraseDups
  | [] => rfl
  | t :: l => by
    have hshorter : (l.filter (· ≠ t)).length < l.length + 1 :=
      Nat.lt_succ_of_le (List.length_filter_le _ _)
    have hword : ((l.map ScalarType.word).filter fun w => !w == t.word) =
        (l.filter (· ≠ t)).map ScalarType.word := by
      rw [List.filter_map]
      congr 1
      refine List.filter_congr fun t' _ => ?_
      by_cases h : t' = t <;> simp [h, ScalarType.word_injective.eq_iff]
    rw [distinct, List.map_cons, List.map_cons, List.eraseDups_cons, hword,
      ← map_word_distinct (l.filter (· ≠ t)), distinct_filter]
termination_by l => l.length
decreasing_by simpa using hshorter

theorem membersOf_eq_ok_iff {union : String} {pieces : List (List Char)} {l : List ScalarType} :
    membersOf union pieces = .ok l ↔
      (pieces.map fun piece => String.ofList (trim piece)) = l.map ScalarType.word := by
  induction pieces generalizing l with
  | nil => cases l <;> simp [membersOf]
  | cons piece pieces ih =>
    cases hword : ScalarType.ofWord? (String.ofList (trim piece)) with
    | none =>
      refine iff_of_false (by simp [membersOf, hword]) fun h => ?_
      obtain ⟨t, rest, rfl, ht, -⟩ := List.map_eq_cons_iff.mp h.symm
      rw [ScalarType.ofWord?_eq_some_iff.mpr ht] at hword
      cases hword
    | some t =>
      have ht := ScalarType.ofWord?_eq_some_iff.mp hword
      simp only [membersOf, hword, Except.map_eq_ok, ih, List.map_cons]
      constructor
      · rintro ⟨rest, hrest, rfl⟩
        rw [hrest, ← ht, List.map_cons]
      · intro h
        obtain ⟨t', rest, rfl, ht', hrest⟩ := List.map_eq_cons_iff.mp h.symm
        exact ⟨rest, hrest.symm, by rw [ScalarType.word_injective (ht.trans ht'.symm)]⟩

theorem exists_map_word {words : List String} (h : ∀ w ∈ words, ∃ t, ScalarType.word t = w) :
    ∃ l, words = List.map ScalarType.word l := by
  have hrange : words ∈ Set.range (List.map ScalarType.word) := by
    rw [Set.range_list_map]
    exact h
  obtain ⟨l, hl⟩ := hrange
  exact ⟨l, hl.symm⟩

/-- A text is read exactly if its words name types, and to the union of these in the order of their
first mention. -/
theorem parse_eq_ok_iff :
    parse (String.ofList u) = .ok r ↔ r.members.map ScalarType.word = (wordsOf u).eraseDups := by
  simp only [parse, Except.map_eq_ok, membersOf_eq_ok_iff, String.toList_ofList]
  constructor
  · rintro ⟨l, hl, rfl⟩
    rw [wordsOf, hl, map_word_distinct]
  · intro h
    -- Each word is one of the members' words, so it names a type.
    obtain ⟨l, hl⟩ := exists_map_word fun w hw => by
      rw [← List.mem_eraseDups, ← h] at hw
      exact (List.mem_map.mp hw).imp fun _ => And.right
    rw [hl, ← map_word_distinct] at h
    refine ⟨l, hl, ?_⟩
    rw [← List.map_injective_iff.mpr ScalarType.word_injective h]

/-- Whether a text is read depends on the set of its words. -/
theorem exists_parse_iff :
    (∃ r, parse (String.ofList u) = .ok r) ↔ ∀ w ∈ wordsOf u, ∃ t, ScalarType.word t = w := by
  simp only [parse_eq_ok_iff]
  constructor
  · rintro ⟨r, hr⟩ w hw
    rw [← List.mem_eraseDups, ← hr] at hw
    exact (List.mem_map.mp hw).imp fun _ => And.right
  · intro h
    obtain ⟨l, hl⟩ := exists_map_word h
    exact ⟨⟨distinct l⟩, by rw [hl, map_word_distinct]⟩

/-! ## The form of a union -/

/-- A union as a directive has it: words with bars between them, and blanks around each of them. -/
inductive IsUnion : List Char → Prop
  | last {before word after : List Char} :
      allBlank before → isWord word → allBlank after → IsUnion (before ++ (word ++ after))
  | cons {before word after union : List Char} :
      allBlank before → isWord word → allBlank after → IsUnion union →
      IsUnion (before ++ (word ++ after) ++ '|' :: union)

theorem trim_of_isWord {word before after : List Char} (hbefore : allBlank before)
    (hword : isWord word) (hafter : allBlank after) : trim (before ++ (word ++ after)) = word := by
  have hchar := (isToken_of_isWord hword).2
  rw [trim_append hbefore hafter]
  exact trim_eq_self (fun c hc => hchar c (List.mem_of_head? hc))
    fun c hc => hchar c (List.mem_of_getLast? hc)

/-- No bar stands in a word or in the blanks around it. -/
theorem bar_not_mem {word before after : List Char} (hbefore : allBlank before)
    (hword : isWord word) (hafter : allBlank after) : '|' ∉ before ++ (word ++ after) := by
  have hbar : isBlank '|' = false := by decide
  have hchar : '|' ∉ word := fun hmem =>
    absurd (Designation.isWordChar_of_isWord hword _ hmem) (by decide +kernel)
  simp [not_mem_of_allBlank hbefore hbar, hchar, not_mem_of_allBlank hafter hbar]

theorem isUnion_of_forall {pieces : List (List Char)} (hne : pieces ≠ [])
    (h : ∀ piece ∈ pieces, isWord (trim piece)) : IsUnion (joinWith ['|'] pieces) := by
  induction pieces with
  | nil => exact absurd rfl hne
  | cons piece pieces ih =>
    obtain ⟨hpiece, hpieces⟩ := List.forall_mem_cons.mp h
    obtain ⟨before, after, hbefore, hafter, heq⟩ := exists_append_trim piece
    cases pieces with
    | nil =>
      rw [joinWith, heq]
      exact .last hbefore hpiece hafter
    | cons next pieces =>
      rw [joinWith, List.append_assoc, List.singleton_append]
      nth_rewrite 1 [heq]
      exact .cons hbefore hpiece hafter (ih (List.cons_ne_nil _ _) hpieces)

/-- The form is found exactly where it is. -/
theorem isUnion_iff {s : List Char} : isUnion s ↔ IsUnion s := by
  rw [isUnion, List.all_eq_true]
  constructor
  · intro h
    rw [← @joinWith_splitOn '|' s]
    exact isUnion_of_forall (splitOn_ne_nil _ _) h
  · intro h
    induction h with
    | last hbefore hword hafter =>
      rw [splitOn_of_not_mem (bar_not_mem hbefore hword hafter), List.forall_mem_singleton,
        trim_of_isWord hbefore hword hafter]
      exact hword
    | cons hbefore hword hafter _ ih =>
      rw [splitOn_append (bar_not_mem hbefore hword hafter), List.forall_mem_cons,
        trim_of_isWord hbefore hword hafter]
      exact ⟨hword, ih⟩

/-! ## Directives -/

/-- Blanks around a union are blanks around its first and its last word. -/
theorem wordsOf_append {before after : List Char} (hbefore : allBlank before)
    (hafter : allBlank after) (s : List Char) : wordsOf (before ++ (s ++ after)) = wordsOf s := by
  have hbar : isBlank '|' = false := by decide
  have hfront := not_mem_of_allBlank hbefore hbar
  obtain ⟨pieces, last, hs, hmore⟩ := exists_splitOn_append (not_mem_of_allBlank hafter hbar) s
  rw [wordsOf, wordsOf, hs]
  cases pieces with
  | nil =>
    rw [splitOn_append_left hfront hmore]
    simp [trim_append hbefore hafter]
  | cons first pieces =>
    rw [splitOn_append_left hfront hmore]
    simp [trim_append_left hbefore, trim_append_right hafter]

theorem wordsOf_trim (u : List Char) : wordsOf (trim u) = wordsOf u := by
  obtain ⟨before, after, hbefore, hafter, hu⟩ := exists_append_trim u
  rw [← wordsOf_append hbefore hafter, ← hu]

/-- A text that is read has the form of a union. -/
theorem isUnion_of_parse (h : parse (String.ofList u) = .ok r) : isUnion u := by
  have hword : ∀ t : ScalarType, isWord t.word.toList := fun t => by cases t <;> decide +kernel
  rw [isUnion, List.all_eq_true]
  intro piece hpiece
  have hmem : String.ofList (trim piece) ∈ wordsOf u := List.mem_map.mpr ⟨piece, hpiece, rfl⟩
  rw [← List.mem_eraseDups, ← parse_eq_ok_iff.mp h] at hmem
  obtain ⟨t, -, ht⟩ := List.mem_map.mp hmem
  rw [← String.toList_ofList (l := trim piece), ← ht]
  exact hword t

/-- The arguments of a directive are read as the text that they are. -/
theorem ofArguments_eq_ok_iff (line : Nat) :
    ofArguments line u = .ok r ↔ parse (String.ofList u) = .ok r := by
  have htrim : parse (String.ofList (trim u)) = .ok r ↔ parse (String.ofList u) = .ok r := by
    rw [parse_eq_ok_iff, parse_eq_ok_iff, wordsOf_trim]
  rw [← htrim]
  unfold ofArguments
  split
  · cases hparse : parse (String.ofList (trim u)) <;> simp [hparse]
  · rename_i hunion
    refine iff_of_false (by simp) fun h => hunion ?_
    exact isUnion_of_parse (htrim.mp h)

theorem directiveName_head : ∃ c rest, directiveName = c :: rest ∧ isBlank c = false :=
  ⟨_, _, rfl, by decide⟩

theorem ofSource_eq_ok_iff {n : Nat} {result : Option ReturnType × List Diagnostic}
    (hd : d.returnsScalar) (hs : Directive.StandsAlone directiveName s.header n u) :
    ofSource s d = .ok result ↔
      ∃ r, parse (String.ofList u) = .ok r ∧ result = (some r, []) := by
  have hfind := (Directive.find_eq_singleton_iff directiveName_head).mpr hs
  simp only [← ofArguments_eq_ok_iff (n + 1), ofSource, hfind, hd, if_true]
  cases ofArguments (n + 1) u with
  | ok r => simp [eq_comm]
  | error fault => simp

theorem exists_ofSource_iff {n : Nat} (hd : d.returnsScalar)
    (hs : Directive.StandsAlone directiveName s.header n u) :
    (∃ result, ofSource s d = .ok result) ↔ ∀ w ∈ wordsOf u, ∃ t, ScalarType.word t = w := by
  simp [ofSource_eq_ok_iff hd hs, ← exists_parse_iff]

/-! ## The verdict -/

theorem nodup_of_parse (h : parse (String.ofList u) = .ok r) : r.members.Nodup :=
  (isSet_of_parse h).2

/-- The words that name the members are the words of the text. -/
theorem mem_wordsOf_iff (h : parse (String.ofList u) = .ok r) {w : String} :
    w ∈ wordsOf u ↔ ∃ t ∈ r.members, t.word = w := by
  rw [← List.mem_eraseDups, ← parse_eq_ok_iff.mp h, List.mem_map]

theorem perm_members (hr : r.members.Nodup) (hr' : r'.members.Nodup)
    (h : ∀ t, t ∈ r.members ↔ t ∈ r'.members) : r.members.Perm r'.members :=
  (List.perm_ext_iff_of_nodup hr hr').mpr h

/-- Unions with the same members are judged alike. -/
theorem check_of_perm (h : r.members.Perm r'.members) :
    check d r' = (check d r).mapError (ReturnTypeFault.about r') := by
  have halone : ∀ t, r'.isExactly t = r.isExactly t := fun t => by
    rw [isExactly, isExactly, Bool.eq_iff_iff, beq_iff_eq, beq_iff_eq, ← List.perm_singleton,
      ← List.perm_singleton]
    exact ⟨h.trans, h.symm.trans⟩
  have hall : r'.members.all isCombinable = r.members.all isCombinable := h.symm.all_eq
  have hnull : r'.contains .null = r.contains .null := h.symm.contains_eq
  rw [check, check, halone, halone, hall, hnull]
  split
  · rfl
  · split
    · rfl
    · split <;> rfl

/-- The sets of words that are accepted: `mixed` alone, `bool` alone, or some of the four types that
can be combined, with `null` among them for a routine that may have no row to answer. -/
inductive AcceptsWords (d : Designation) (words : List String) : Prop
  | mixed : (∀ w, w ∈ words ↔ w = "mixed") → AcceptsWords d words
  | bool : (∀ w, w ∈ words ↔ w = "bool") → AcceptsWords d words
  | union : (∀ w ∈ words, w ∈ ["int", "float", "string", "null"]) →
      (d = .singleton0 → "null" ∈ words) → AcceptsWords d words

theorem word_mem_wordsOf_iff (h : parse (String.ofList u) = .ok r) {t : ScalarType} :
    t.word ∈ wordsOf u ↔ t ∈ r.members := by
  simp [mem_wordsOf_iff h, ScalarType.word_injective.eq_iff]

/-- A type is the only member if its word is the only one. -/
theorem members_eq_singleton_iff (h : parse (String.ofList u) = .ok r) (t : ScalarType) :
    r.members = [t] ↔ ∀ w, w ∈ wordsOf u ↔ w = t.word := by
  constructor
  · intro ht w
    simp [mem_wordsOf_iff h, ht, eq_comm]
  · intro hw
    rw [← List.perm_singleton,
      List.perm_ext_iff_of_nodup (nodup_of_parse h) (List.nodup_singleton t)]
    intro t'
    rw [← word_mem_wordsOf_iff h, hw, ScalarType.word_injective.eq_iff, List.mem_singleton]

theorem forall_members_iff (h : parse (String.ofList u) = .ok r) :
    (∀ t ∈ r.members, t ∈ [ScalarType.int, .float, .string, .null]) ↔
      ∀ w ∈ wordsOf u, w ∈ ["int", "float", "string", "null"] := by
  have hword : ∀ t : ScalarType, t.word ∈ ["int", "float", "string", "null"] ↔
      t ∈ [ScalarType.int, .float, .string, .null] := fun t => by cases t <;> decide
  constructor
  · intro hmembers w hw
    obtain ⟨t, ht, rfl⟩ := (mem_wordsOf_iff h).mp hw
    exact (hword t).mpr (hmembers t ht)
  · exact fun hwords t ht => (hword t).mp (hwords _ ((word_mem_wordsOf_iff h).mpr ht))

theorem check_eq_ok_iff_words (hd : d.returnsScalar) (h : parse (String.ofList u) = .ok r) :
    check d r = .ok () ↔ AcceptsWords d (wordsOf u) := by
  have hmixed := members_eq_singleton_iff h .mixed
  have hbool := members_eq_singleton_iff h .bool
  have hmembers := forall_members_iff h
  have hnull := word_mem_wordsOf_iff h (t := .null)
  rw [check_eq_ok_iff hd]
  obtain ⟨members⟩ := r
  constructor
  · rintro (_ | _ | ⟨hunion, hall⟩)
    · exact .mixed (hmixed.mp rfl)
    · exact .bool (hbool.mp rfl)
    · exact .union (hmembers.mp hunion) fun hd => hnull.mpr (hall hd)
  · rintro (hw | hw | ⟨hunion, hall⟩)
    · obtain rfl := hmixed.mpr hw
      exact .mixed
    · obtain rfl := hbool.mpr hw
      exact .bool
    · exact .union (hmembers.mpr hunion) fun hd => hnull.mp (hall hd)

/-- Two sources that declare unions of the same words both have a return type or both have none, and
it is judged alike. A declared union is read as its text is: to its distinct words in the order of
their first mention, if they all name types, and from what it is shown as to itself. -/
theorem verdict_of_words {n n' : Nat} (hd : d.returnsScalar)
    (hs : Directive.StandsAlone directiveName s.header n u)
    (hs' : Directive.StandsAlone directiveName s'.header n' u') :
    (∀ result, ofSource s d = .ok result ↔
        ∃ r, parse (String.ofList u) = .ok r ∧ result = (some r, [])) ∧
      (∀ r, parse (String.ofList u) = .ok r ↔
        r.members.map ScalarType.word = (wordsOf u).eraseDups) ∧
      (∀ r, parse (String.ofList u) = .ok r → IsUnion u ∧ parse r.render = .ok r ∧
        (check d r = .ok () ↔ AcceptsWords d (wordsOf u))) ∧
      ((∀ w, w ∈ wordsOf u ↔ w ∈ wordsOf u') →
        ((∃ result, ofSource s d = .ok result) ↔ ∃ result, ofSource s' d = .ok result) ∧
        ∀ r r', parse (String.ofList u) = .ok r → parse (String.ofList u') = .ok r' →
          check d r' = (check d r).mapError (ReturnTypeFault.about r')) := by
  refine ⟨fun result => ofSource_eq_ok_iff hd hs, fun r => parse_eq_ok_iff, fun r h => ?_,
    fun hsame => ⟨?_, fun r r' h h' => ?_⟩⟩
  · exact ⟨isUnion_iff.mp (isUnion_of_parse h), parse_render (isSet_of_parse h),
      check_eq_ok_iff_words hd h⟩
  · simp only [exists_ofSource_iff hd hs, exists_ofSource_iff hd hs', hsame]
  · refine check_of_perm (perm_members (nodup_of_parse h) (nodup_of_parse h') fun t => ?_)
    rw [← word_mem_wordsOf_iff h, ← word_mem_wordsOf_iff h', hsame]

/-- A source with one `return` directive. -/
def unionSource (union : String) : Source :=
  ⟨⟨"/r.psql"⟩, "-- return:" ++ union ++ "\nbegin\n", 0⟩

/-- Two spellings of a union that is forbidden: each is read, and refused in its own spelling. -/
theorem verdict_of_words_forbidden :
    ofSource (unionSource " bool |int|\tbool ") .singleton0 = .ok (some ⟨[.bool, .int]⟩, []) ∧
      (∃ result, ofSource (unionSource "int|bool") .singleton0 = .ok result) ∧
      check .singleton0 ⟨[.int, .bool]⟩ = .error (.forbidden ⟨[.int, .bool]⟩) := by
  have hs : Directive.StandsAlone directiveName (unionSource " bool |int|\tbool ").header 0
      " bool |int|\tbool ".toList :=
    (Directive.find_eq_singleton_iff directiveName_head).mp (by decide +kernel)
  have hs' : Directive.StandsAlone directiveName (unionSource "int|bool").header 0
      "int|bool".toList :=
    (Directive.find_eq_singleton_iff directiveName_head).mp (by decide +kernel)
  obtain ⟨hresult, hread, -, hsame⟩ := verdict_of_words (d := .singleton0) rfl hs hs'
  have hparse : parse (String.ofList " bool |int|\tbool ".toList) = .ok ⟨[.bool, .int]⟩ :=
    (hread _).mpr (by decide +kernel)
  have hwords : ∀ w, w ∈ wordsOf " bool |int|\tbool ".toList ↔ w ∈ wordsOf "int|bool".toList := by
    have hfirst : wordsOf " bool |int|\tbool ".toList = ["bool", "int", "bool"] := by
      decide +kernel
    have hsecond : wordsOf "int|bool".toList = ["int", "bool"] := by decide +kernel
    simp only [hfirst, hsecond, List.mem_cons]
    tauto
  obtain ⟨hboth, hverdict⟩ := hsame hwords
  have hok := (hresult _).mpr ⟨_, hparse, rfl⟩
  exact ⟨hok, hboth.mp ⟨_, hok⟩, (hverdict _ _ hparse (by decide +kernel)).trans (by decide)⟩

end ReturnType

end RoutineLoader
