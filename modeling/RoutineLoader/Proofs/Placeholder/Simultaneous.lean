import Mathlib.Data.List.Induction
import Mathlib.Data.List.Nodup
import Mathlib.Logic.Function.Basic
import RoutineLoader.Placeholder.Substitution
import RoutineLoader.Proofs.Text.Affix

/-!
# Simultaneous replacement

`Replaces` says what it is to replace keys in a line, for any mapping of keys to replacements: the
line is read from left to right, the longest key that starts the remaining text gives way to its
replacement, and a character at which no key starts is copied. A line has exactly one such result.

A substitution keeps its entries in the order in which they are tried, longer keys first
(`Ordered`), and after any additions it holds the last replacement of every key (`Holds`). Hence it
replaces simultaneously by the mapping that the additions come to, in whatever order they were made
(`replacesBy_latest`). A key that starts a text byte by byte is made of its first characters, so
cutting off a key never splits a character (`utf8Encode_append_iff`).
-/

namespace RoutineLoader.Placeholder

/-- What keys are replaced with. -/
abbrev Mapping := List Char → Option Replacement

/-- The keys of both mappings; where both have one, the first counts. -/
def Mapping.over (m m' : Mapping) : Mapping :=
  fun key => (m key).or (m' key)

variable {m : Mapping} {line : Nat} {text rest key key' : List Char} {r r' : Replacement}

/-! ## Replacing the longest key -/

/-- The key starts the text, and no longer key does. The empty key does not count. -/
structure IsLongestKey (m : Mapping) (text key : List Char) (r : Replacement) : Prop where
  ne_nil : key ≠ []
  value : m key = some r
  starts : key <+: text
  longest : ∀ key' r', m key' = some r' → key' <+: text → key'.length ≤ key.length

/-- No key but the empty one starts the text. -/
def NoKey (m : Mapping) (text : List Char) : Prop :=
  ∀ key r, key ≠ [] → m key = some r → ¬ key <+: text

/-- What is put in for a key on a line: a text as it is, or the number of the line in decimal
digits. -/
inductive PutIn (line : Nat) : Replacement → List Char → Prop
  | text (value : String) : PutIn line (.text value) value.toList
  | lineNumber : PutIn line .lineNumber (Nat.toDigits 10 line)

theorem putIn_iff {put : List Char} : PutIn line r put ↔ r.onLine line = put := by
  constructor
  · rintro (value | -)
    · rfl
    · exact String.toList_ofList
  · rintro rfl
    cases r with
    | text value => exact .text value
    | lineNumber =>
      have hdigits : Replacement.lineNumber.onLine line = Nat.toDigits 10 line :=
        String.toList_ofList
      exact hdigits ▸ .lineNumber

/-- A line with the longest key replaced wherever one starts, read from left to right. -/
inductive Replaces (m : Mapping) (line : Nat) : List Char → List Char → Prop
  | nil : Replaces m line [] []
  | key {key rest put out : List Char} {r : Replacement} :
      IsLongestKey m (key ++ rest) key r → PutIn line r put → Replaces m line rest out →
      Replaces m line (key ++ rest) (put ++ out)
  | copy {c : Char} {rest out : List Char} :
      NoKey m (c :: rest) → Replaces m line rest out → Replaces m line (c :: rest) (c :: out)

theorem IsLongestKey.not_noKey (h : IsLongestKey m text key r) : ¬ NoKey m text :=
  fun hnone => hnone key r h.ne_nil h.value h.starts

theorem IsLongestKey.unique (h : IsLongestKey m text key r) (h' : IsLongestKey m text key' r') :
    key = key' ∧ r = r' := by
  have hlength : key.length = key'.length :=
    Nat.le_antisymm (h'.longest key r h.value h.starts) (h.longest key' r' h'.value h'.starts)
  obtain rfl : key = key' := by
    rcases List.prefix_or_prefix_of_prefix h.starts h'.starts with hstarts | hstarts
    · exact hstarts.eq_of_length hlength
    · exact (hstarts.eq_of_length hlength.symm).symm
  exact ⟨rfl, Option.some.inj (h.value.symm.trans h'.value)⟩

/-- A line becomes one thing only. -/
theorem Replaces.unique {out out' : List Char} (h : Replaces m line text out)
    (h' : Replaces m line text out') : out = out' := by
  induction h generalizing out' with
  | nil =>
    generalize htext : ([] : List Char) = text at h'
    cases h' with
    | nil => rfl
    | key hkey _ _ => exact absurd (List.append_eq_nil_iff.mp htext.symm).1 hkey.ne_nil
    | copy _ _ => cases htext
  | @key key rest put out r hkey hput _ ih =>
    generalize htext : key ++ rest = text at h'
    cases h' with
    | nil => exact absurd (List.append_eq_nil_iff.mp htext).1 hkey.ne_nil
    | key hkey' hput' hrest' =>
      obtain ⟨rfl, rfl⟩ := hkey.unique (htext ▸ hkey')
      obtain rfl := List.append_cancel_left htext
      rw [ih hrest', ← putIn_iff.mp hput, ← putIn_iff.mp hput']
    | copy hnone _ => exact absurd (htext ▸ hnone) hkey.not_noKey
  | @copy c rest out hnone _ ih =>
    generalize htext : c :: rest = text at h'
    cases h' with
    | nil => cases htext
    | key hkey' _ _ => exact absurd hnone (htext ▸ hkey'.not_noKey)
    | copy _ hrest' =>
      obtain ⟨rfl, rfl⟩ := List.cons.inj htext
      rw [ih hrest']

namespace Substitution

variable {σ σ' : Substitution} {added added' : List (List Char × Replacement)}
  {entries : List (List Char × Replacement)} {e : List Char × Replacement}

/-! ## The order of the entries -/

theorem byteLength_append (a b : List Char) :
    byteLength (a ++ b) = byteLength a + byteLength b := by
  simp [byteLength]

theorem byteLength_eq_zero_iff : byteLength key = 0 ↔ key = [] := by
  simp [byteLength]

/-- Of two keys that start one text, the one with more bytes has more characters. -/
theorem length_le_of_byteLength_le (h : key <+: text) (h' : key' <+: text)
    (hbytes : byteLength key' ≤ byteLength key) : key'.length ≤ key.length := by
  rcases List.prefix_or_prefix_of_prefix h h' with ⟨more, rfl⟩ | hstarts
  · rw [byteLength_append] at hbytes
    have hmore : more = [] := byteLength_eq_zero_iff.mp (by omega)
    simp [hmore]
  · exact hstarts.length_le

theorem triedBefore_iff : triedBefore key key' ↔ byteLength key' < byteLength key ∨
    byteLength key = byteLength key' ∧ String.ofList key < String.ofList key' := by
  simp [triedBefore]

theorem byteLength_le_of_triedBefore (h : triedBefore key key') :
    byteLength key' ≤ byteLength key := by
  rcases triedBefore_iff.mp h with h | ⟨h, -⟩ <;> omega

theorem not_triedBefore_self (key : List Char) : ¬ triedBefore key key := by
  rw [triedBefore_iff]
  rintro (h | ⟨-, h⟩)
  · exact Nat.lt_irrefl _ h
  · exact String.lt_irrefl _ h

theorem triedBefore_trans {key'' : List Char} (h : triedBefore key key')
    (h' : triedBefore key' key'') : triedBefore key key'' := by
  rw [triedBefore_iff] at h h' ⊢
  rcases h with h | ⟨h, hlt⟩
  · exact Or.inl (by omega)
  · rcases h' with h' | ⟨h', hlt'⟩
    · exact Or.inl (by omega)
    · exact Or.inr ⟨h.trans h', String.lt_trans hlt hlt'⟩

/-- Of two keys one is tried before the other. -/
theorem triedBefore_of_not (hne : key ≠ key') (h : ¬ triedBefore key key') :
    triedBefore key' key := by
  rw [triedBefore_iff] at h ⊢
  by_cases hlength : byteLength key = byteLength key'
  · refine Or.inr ⟨hlength.symm, SortedMap.lt_of_not_lt_of_ne ?_ fun heq => ?_⟩
    · exact fun hlt => h (Or.inr ⟨hlength, hlt⟩)
    · exact hne (String.ofList_inj.mp heq)
  · exact Or.inl (by omega)

theorem place_perm (key : List Char) (r : Replacement) (entries : List (List Char × Replacement)) :
    (place key r entries).Perm ((key, r) :: entries) := by
  induction entries with
  | nil => exact List.Perm.refl _
  | cons e entries ih =>
    rw [place]
    split
    · exact (ih.cons e).trans (List.Perm.swap _ _ _)
    · exact List.Perm.refl _

/-- An entry goes behind those that are tried before it. -/
theorem pairwise_place (hsorted : entries.Pairwise fun a b => triedBefore a.1 b.1)
    (hnew : ∀ e ∈ entries, e.1 ≠ key) :
    (place key r entries).Pairwise fun a b => triedBefore a.1 b.1 := by
  induction entries with
  | nil => exact List.pairwise_singleton _ _
  | cons e entries ih =>
    obtain ⟨hbefore, hrest⟩ := List.pairwise_cons.mp hsorted
    rw [place]
    split
    · rename_i hearlier
      refine List.pairwise_cons.mpr ⟨fun e' he' => ?_, ih hrest fun e' he' =>
        hnew e' (List.mem_cons_of_mem _ he')⟩
      rcases List.mem_cons.mp ((place_perm key r entries).subset he') with rfl | he'
      · exact hearlier
      · exact hbefore e' he'
    · rename_i hlater
      have hfirst := triedBefore_of_not (hnew e List.mem_cons_self) hlater
      refine List.pairwise_cons.mpr ⟨fun e' he' => ?_, hsorted⟩
      rcases List.mem_cons.mp he' with rfl | he'
      · exact hfirst
      · exact triedBefore_trans hfirst (hbefore e' he')

/-- The entries have keys that are not empty, in the order in which they are tried. -/
structure Ordered (σ : Substitution) : Prop where
  nonempty : ∀ e ∈ σ.entries, e.1 ≠ []
  sorted : σ.entries.Pairwise fun a b => triedBefore a.1 b.1

theorem ordered_empty : Ordered ⟨[]⟩ :=
  ⟨by simp, .nil⟩

theorem mem_add (hkey : key ≠ []) :
    e ∈ (σ.add key r).entries ↔ e = (key, r) ∨ e ∈ σ.entries ∧ e.1 ≠ key := by
  rw [add, if_neg (by simpa using hkey), (place_perm key r _).mem_iff]
  simp

theorem add_nil (σ : Substitution) (r : Replacement) : σ.add [] r = σ :=
  rfl

/-- An addition keeps the order. -/
theorem Ordered.add (h : σ.Ordered) (key : List Char) (r : Replacement) :
    (σ.add key r).Ordered := by
  by_cases hkey : key = []
  · rwa [hkey, add_nil]
  · refine ⟨fun e he => ?_, ?_⟩
    · rcases (mem_add hkey).mp he with rfl | ⟨he, -⟩
      · exact hkey
      · exact h.nonempty e he
    · rw [Substitution.add, if_neg (by simpa using hkey)]
      exact pairwise_place (h.sorted.filter _) fun e he => by simpa using (List.mem_filter.mp he).2

theorem Ordered.nodup_keys (h : σ.Ordered) : (σ.entries.map Prod.fst).Nodup := by
  refine List.pairwise_map.mpr (h.sorted.imp fun hbefore heq => ?_)
  rw [heq] at hbefore
  exact not_triedBefore_self _ hbefore

/-- Two substitutions with the same entries in the order of trials are the same. -/
theorem Ordered.ext (h : σ.Ordered) (h' : σ'.Ordered)
    (hmem : ∀ e, e ∈ σ.entries ↔ e ∈ σ'.entries) : σ = σ' := by
  have hperm : σ.entries.Perm σ'.entries :=
    (List.perm_ext_iff_of_nodup h.nodup_keys.of_map h'.nodup_keys.of_map).mpr hmem
  have heq : σ.entries = σ'.entries := by
    refine hperm.eq_of_pairwise (fun a b _ _ hab hba => ?_) h.sorted h'.sorted
    exact absurd (triedBefore_trans hab hba) (not_triedBefore_self _)
  cases σ
  cases σ'
  exact congrArg Substitution.mk heq

/-! ## What the entries come to -/

/-- The substitution with further keys, added one after the other. -/
def addAll (σ : Substitution) (added : List (List Char × Replacement)) : Substitution :=
  added.foldl (fun σ e => σ.add e.1 e.2) σ

/-- The last replacement that is given for each key. -/
def latest (added : List (List Char × Replacement)) : Mapping :=
  fun key => (added.reverse.find? fun e => e.1 = key).map Prod.snd

/-- The entries are those of the mapping, without the empty key. -/
def Holds (σ : Substitution) (m : Mapping) : Prop :=
  ∀ key r, (key, r) ∈ σ.entries ↔ key ≠ [] ∧ m key = some r

theorem latest_concat (added : List (List Char × Replacement)) (e : List Char × Replacement) :
    latest (added ++ [e]) = Function.update (latest added) e.1 (some e.2) := by
  funext key
  rw [latest, List.reverse_concat, List.find?_cons, Function.update_apply]
  by_cases hkey : e.1 = key
  · simp [hkey]
  · simp [hkey, Ne.symm hkey, latest]

theorem latest_append (added added' : List (List Char × Replacement)) :
    latest (added ++ added') = (latest added').over (latest added) := by
  funext key
  simp only [latest, Mapping.over, List.reverse_append, List.find?_append]
  cases added'.reverse.find? fun e => e.1 = key <;> rfl

theorem Holds.add (h : σ.Holds m) (key : List Char) (r : Replacement) :
    (σ.add key r).Holds (Function.update m key (some r)) := by
  intro key' r'
  rw [Function.update_apply]
  by_cases hkey : key = []
  · subst hkey
    rw [add_nil, h]
    exact and_congr_right fun hne => by rw [if_neg hne]
  · rw [mem_add hkey, h]
    by_cases heq : key' = key
    · subst heq
      simp [hkey, eq_comm]
    · simp [heq]

/-- Whatever is added, the entries stay in order and are those of the last replacements. -/
theorem ordered_addAll (added : List (List Char × Replacement)) :
    (addAll ⟨[]⟩ added).Ordered ∧ (addAll ⟨[]⟩ added).Holds (latest added) := by
  induction added using List.reverseRecOn with
  | nil => exact ⟨ordered_empty, fun key r => by simp [addAll, latest]⟩
  | append_singleton added e ih =>
    have hconcat : addAll ⟨[]⟩ (added ++ [e]) = (addAll ⟨[]⟩ added).add e.1 e.2 := by
      simp [addAll]
    rw [hconcat, latest_concat]
    exact ⟨ih.1.add _ _, ih.2.add _ _⟩

/-! ## Replacing by the entries -/

/-- The entry that is found is the one with the longest key. -/
theorem isLongestKey_of_match? (hordered : σ.Ordered) (hholds : σ.Holds m)
    (h : σ.match? text = some (key, r)) : IsLongestKey m text key r := by
  obtain ⟨hstart, tried, behind, hentries, htried⟩ := List.find?_eq_some_iff_append.mp h
  have hmem : (key, r) ∈ σ.entries := by simp [hentries]
  obtain ⟨hne, hvalue⟩ := (hholds key r).mp hmem
  have hstarts := Text.isSome_dropStart?_iff.mp hstart
  refine ⟨hne, hvalue, hstarts, fun key' r' hvalue' hstarts' => ?_⟩
  by_cases hne' : key' = []
  · simp [hne']
  -- The other key is not tried earlier, since it would have been found.
  have hmem' : (key', r') ∈ tried ++ (key, r) :: behind :=
    hentries ▸ (hholds key' r').mpr ⟨hne', hvalue'⟩
  rcases List.mem_append.mp hmem' with hearlier | hlater
  · have hnot := htried _ hearlier
    rw [Text.isSome_dropStart?_iff.mpr hstarts'] at hnot
    cases hnot
  · rcases List.mem_cons.mp hlater with heq | hlater
    · exact Nat.le_of_eq (congrArg (fun e => e.1.length) heq)
    · have hsorted := hordered.sorted
      rw [hentries, List.pairwise_append, List.pairwise_cons] at hsorted
      have hbefore := hsorted.2.1.1 _ hlater
      exact length_le_of_byteLength_le hstarts hstarts' (byteLength_le_of_triedBefore hbefore)

theorem match?_eq_none_iff (hholds : σ.Holds m) : σ.match? text = none ↔ NoKey m text := by
  rw [match?, List.find?_eq_none]
  constructor
  · intro h key r hne hvalue hstarts
    exact h (key, r) ((hholds key r).mpr ⟨hne, hvalue⟩) (Text.isSome_dropStart?_iff.mpr hstarts)
  · rintro h ⟨key, r⟩ hmem hstart
    obtain ⟨hne, hvalue⟩ := (hholds key r).mp hmem
    exact h key r hne hvalue (Text.isSome_dropStart?_iff.mp hstart)

theorem applyLine_of_match? (h : σ.match? (key ++ rest) = some (key, r)) (hne : key ≠ []) :
    σ.applyLine line (key ++ rest) = r.onLine line ++ σ.applyLine line rest := by
  obtain ⟨c, tail, rfl⟩ := List.exists_cons_of_ne_nil hne
  rw [List.cons_append, applyLine]
  rw [List.cons_append] at h
  simp [h]

theorem applyLine_of_match?_eq_none {c : Char} (h : σ.match? (c :: rest) = none) :
    σ.applyLine line (c :: rest) = c :: σ.applyLine line rest := by
  rw [applyLine, h]

/-- A substitution whose entries are in order replaces by the mapping that it holds. -/
theorem replaces_applyLine (hordered : σ.Ordered) (hholds : σ.Holds m) (line : Nat)
    (text : List Char) : Replaces m line text (σ.applyLine line text) := by
  induction text using applyLine.induct σ with
  | case1 =>
    rw [applyLine]
    exact .nil
  | case2 c text key r hmatch ih =>
    have hlongest := isLongestKey_of_match? hordered hholds hmatch
    obtain ⟨rest, hrest⟩ := hlongest.starts
    obtain ⟨first, tail, rfl⟩ := List.exists_cons_of_ne_nil hlongest.ne_nil
    obtain rfl : c = first := (List.cons.inj hrest).1.symm
    obtain rfl : text = tail ++ rest := (List.cons.inj hrest).2.symm
    rw [List.length_cons, Nat.add_sub_cancel, List.drop_left] at ih
    rw [← List.cons_append] at hmatch hlongest ⊢
    rw [applyLine_of_match? hmatch (List.cons_ne_nil _ _)]
    exact .key hlongest (putIn_iff.mpr rfl) ih
  | case3 c text hmatch ih =>
    rw [applyLine_of_match?_eq_none hmatch]
    exact .copy ((match?_eq_none_iff hholds).mp hmatch) ih

theorem replaces_iff (hordered : σ.Ordered) (hholds : σ.Holds m) {out : List Char} :
    Replaces m line text out ↔ σ.applyLine line text = out := by
  constructor
  · exact fun h => (replaces_applyLine hordered hholds line text).unique h
  · rintro rfl
    exact replaces_applyLine hordered hholds line text

/-! ## Tokens and constants -/

/-- The values of tokens as replacements of keys. -/
def tokenValues (tokens : SortedMap String) : Mapping :=
  fun key => (tokens.get? (String.ofList key)).map .text

/-- The constants every source may use, with the texts that are put in for them. -/
def constants (file directory routine : String) : List (List Char × Replacement) :=
  [(fileKey, .text file), (directoryKey, .text directory), (routineKey, .text routine),
    (lineKey, .lineNumber)]

variable {tokens : SortedMap String} {file directory routine : String}

/-- The entries of a map, as they are added for its tokens. -/
def tokenEntries (tokens : SortedMap String) : List (List Char × Replacement) :=
  tokens.entries.map fun e => (e.1.toList, .text e.2)

theorem ofTokens_eq_addAll (tokens : SortedMap String) :
    ofTokens tokens = addAll ⟨[]⟩ (tokenEntries tokens) := by
  rw [ofTokens, addAll, tokenEntries, List.foldl_map]

theorem withConstants_addAll (σ : Substitution) (added : List (List Char × Replacement))
    (file directory routine : String) :
    (σ.addAll added).withConstants file directory routine =
      σ.addAll (added ++ constants file directory routine) := by
  simp [addAll, withConstants, constants]

theorem latest_tokenEntries (tokens : SortedMap String) :
    latest (tokenEntries tokens) = tokenValues tokens := by
  have hfind : ∀ (key : List Char) (l : List (String × String)),
      ((l.map fun e => (e.1.toList, Replacement.text e.2)).find? fun e => e.1 = key).map Prod.snd =
        (SortedMap.find (String.ofList key) l).map .text := by
    intro key l
    induction l with
    | nil => rfl
    | cons e l ih =>
      rw [List.map_cons, List.find?_cons, SortedMap.find]
      by_cases hkey : e.1.toList = key
      · subst hkey
        simp
      · have hne : e.1 ≠ String.ofList key := by
          rintro heq
          exact hkey (by rw [heq, String.toList_ofList])
        simpa [hkey, hne] using ih
  funext key
  rw [latest, tokenEntries, ← List.map_reverse, hfind, SortedMap.find_reverse tokens.sorted,
    tokenValues, SortedMap.get?]

/-- Cutting a key off a text by its bytes leaves whole characters. -/
theorem utf8Encode_append_iff {bytes : ByteArray} :
    text.utf8Encode = key.utf8Encode ++ bytes ↔
      ∃ rest, text = key ++ rest ∧ bytes = rest.utf8Encode := by
  constructor
  · intro h
    obtain ⟨rest, rfl⟩ := List.isPrefix_of_utf8Encode_append_eq_utf8Encode bytes h.symm
    rw [List.utf8Encode_append, ByteArray.append_right_inj] at h
    exact ⟨rest, rfl, h.symm⟩
  · rintro ⟨rest, rfl, rfl⟩
    exact List.utf8Encode_append

/-! ## Every substitution replaces simultaneously -/

/-- In every line the substitution replaces the longest keys by what the mapping has for them. -/
structure ReplacesBy (σ : Substitution) (m : Mapping) : Prop where
  /-- The keys of the entries are not empty, ... -/
  nonempty : ∀ e ∈ σ.entries, e.1 ≠ []
  /-- ... all different, ... -/
  distinct : (σ.entries.map Prod.fst).Nodup
  /-- ... and in the order of decreasing length. -/
  decreasing : σ.entries.Pairwise fun a b => byteLength b.1 ≤ byteLength a.1
  /-- A line becomes what it is to become, and nothing else. -/
  replaces : ∀ line text out, Replaces m line text out ↔ σ.applyLine line text = out

theorem Ordered.replacesBy (hordered : σ.Ordered) (hholds : σ.Holds m) : σ.ReplacesBy m where
  nonempty := hordered.nonempty
  distinct := hordered.nodup_keys
  decreasing := hordered.sorted.imp byteLength_le_of_triedBefore
  replaces := fun _ _ _ => replaces_iff hordered hholds

/-- A substitution is determined by the last replacements of its keys. -/
theorem addAll_eq_iff :
    addAll ⟨[]⟩ added = addAll ⟨[]⟩ added' ↔
      ∀ key, key ≠ [] → latest added key = latest added' key := by
  obtain ⟨hordered, hholds⟩ := ordered_addAll added
  obtain ⟨hordered', hholds'⟩ := ordered_addAll added'
  constructor
  · intro heq key hne
    refine Option.ext fun r => ?_
    have hmem : key ≠ [] ∧ latest added key = some r ↔ key ≠ [] ∧ latest added' key = some r := by
      rw [← hholds, ← hholds', heq]
    simpa [hne] using hmem
  · intro hlatest
    refine hordered.ext hordered' fun ⟨key, r⟩ => ?_
    rw [hholds, hholds']
    exact and_congr_right fun hne => by rw [hlatest key hne]

theorem replacesBy_addAll (added : List (List Char × Replacement)) :
    (addAll ⟨[]⟩ added).ReplacesBy (latest added) :=
  (ordered_addAll added).1.replacesBy (ordered_addAll added).2

theorem replacesBy_ofTokens (tokens : SortedMap String) :
    (ofTokens tokens).ReplacesBy (tokenValues tokens) := by
  rw [ofTokens_eq_addAll, ← latest_tokenEntries]
  exact replacesBy_addAll _

theorem replacesBy_withConstants (tokens : SortedMap String) (file directory routine : String) :
    ((ofTokens tokens).withConstants file directory routine).ReplacesBy
      ((latest (constants file directory routine)).over (tokenValues tokens)) := by
  rw [ofTokens_eq_addAll, withConstants_addAll, ← latest_tokenEntries, ← latest_append]
  exact replacesBy_addAll _

/-- Keys that are added one after the other are replaced simultaneously, the longest first, by what
was added last for each; the order of the additions does not matter otherwise. So are the tokens of
a map, without the constants or with them, and then a constant counts more than a token. -/
theorem replacesBy_latest (added added' : List (List Char × Replacement))
    (tokens : SortedMap String) (file directory routine : String) :
    (addAll ⟨[]⟩ added).ReplacesBy (latest added) ∧
    (addAll ⟨[]⟩ added = addAll ⟨[]⟩ added' ↔
      ∀ key, key ≠ [] → latest added key = latest added' key) ∧
    (ofTokens tokens).ReplacesBy (tokenValues tokens) ∧
    ((ofTokens tokens).withConstants file directory routine).ReplacesBy
      ((latest (constants file directory routine)).over (tokenValues tokens)) ∧
    ∀ (key text : List Char) (bytes : ByteArray), text.utf8Encode = key.utf8Encode ++ bytes ↔
      ∃ rest, text = key ++ rest ∧ bytes = rest.utf8Encode :=
  ⟨replacesBy_addAll added, addAll_eq_iff, replacesBy_ofTokens tokens,
    replacesBy_withConstants tokens file directory routine, fun _ _ _ => utf8Encode_append_iff⟩

/-- Keys of which one starts another one, the shorter one being added twice. -/
def overlapping : List (List Char × Replacement) :=
  [("@a".toList, .text "1"), ("@ab".toList, .text "@a"), ("é".toList, .lineNumber),
    ("@a".toList, .text "2")]

/-- The longer of two keys is replaced, and what is put in is not read again; a constant is replaced
although a token has its name. -/
theorem replacesBy_latest_overlapping :
    (∀ key, key ≠ [] → latest overlapping key = latest overlapping.tail.reverse key) ∧
      Replaces (latest overlapping) 12 "@ab@aé@".toList "@a212@".toList ∧
      Replaces ((latest (constants "f" "d" "r")).over
          (tokenValues (.ofList [("@t@", "__LINE__"), ("__FILE__", "no")]))) 3
        "@t@__FILE____LINE__".toList "__LINE__f3".toList := by
  obtain ⟨hby, horder, -, hconstants, -⟩ := replacesBy_latest overlapping overlapping.tail.reverse
    (.ofList [("@t@", "__LINE__"), ("__FILE__", "no")]) "f" "d" "r"
  exact ⟨horder.mp (by decide +kernel), (hby.replaces ..).mpr (by decide +kernel),
    (hconstants.replaces ..).mpr (by decide +kernel)⟩

end Substitution

end RoutineLoader.Placeholder
