import Mathlib.Logic.Relation
import RoutineLoader.Proofs.Placeholder.Expansion
import RoutineLoader.Proofs.Reload

/-!
# Why a routine is loaded

A routine is left alone if its record is current (`IsCurrent`), and else it is loaded for the first
condition that fails (`FirstChange`), the token that is named being the least one whose value has
changed. `firstChange_of_reason` says that this is the whole decision. So it does not depend on what
a table has for tokens that were not recorded, nor on the order, the case and the number in which
the flags of an SQL mode are written (`Respelled`).
-/

namespace RoutineLoader

/-! ## Flags -/

namespace SessionSettings

variable {a b mode flag : String} {l l' : List String}

/-- An SQL mode has a flag if the flag stands between two of its commas, whatever blanks are around
it and in whatever case it is written. Blanks alone are no flag. -/
def HasFlag (mode flag : String) : Prop :=
  ∃ piece ∈ Text.splitOn ',' mode.toList, Text.trim piece ≠ [] ∧
    Text.upperAscii (String.ofList (Text.trim piece)) = Text.upperAscii flag

theorem hasFlag_iff_written :
    HasFlag mode flag ↔ ∃ f ∈ writtenFlags mode, Text.upperAscii f = Text.upperAscii flag := by
  constructor
  · rintro ⟨piece, hpiece, hne, hflag⟩
    refine ⟨_, List.mem_map_of_mem (List.mem_filter.mpr ⟨List.mem_map_of_mem hpiece, ?_⟩), hflag⟩
    simpa using hne
  · rintro ⟨f, hf, hflag⟩
    obtain ⟨_, hkept, rfl⟩ := List.mem_map.mp hf
    obtain ⟨htrimmed, hne⟩ := List.mem_filter.mp hkept
    obtain ⟨piece, hpiece, rfl⟩ := List.mem_map.mp htrimmed
    exact ⟨piece, hpiece, by simpa using hne, hflag⟩

theorem hasFlag_iff : HasFlag mode flag ↔ Text.upperAscii flag ∈ upperFlags mode := by
  rw [hasFlag_iff_written, upperFlags, List.mem_map]

/-- Two SQL modes are the same if they have the same flags. -/
theorem sameSqlMode_iff_hasFlag :
    sameSqlMode a b ↔ ∀ flag, HasFlag a flag ↔ HasFlag b flag := by
  rw [sameSqlMode_iff]
  constructor
  · intro h flag
    rw [hasFlag_iff, hasFlag_iff, h]
  · have hcases : ∀ {a b : String}, (∀ flag, HasFlag a flag → HasFlag b flag) →
        ∀ flag ∈ upperFlags a, flag ∈ upperFlags b := by
      intro a b h flag hflag
      obtain ⟨f, -, rfl⟩ := List.mem_map.mp hflag
      exact hasFlag_iff.mp (h f (hasFlag_iff.mpr hflag))
    exact fun h flag => ⟨hcases (fun f => (h f).mp) flag, hcases (fun f => (h f).mpr) flag⟩

/-- One change in how flags are written: they stand in another order, one of them is written in
another case, or one of them again. -/
inductive RespelledOnce : List String → List String → Prop
  | reorder {l l' : List String} (h : l.Perm l') : RespelledOnce l l'
  | recase {before after : List String} {flag flag' : String}
      (h : Text.upperAscii flag = Text.upperAscii flag') :
      RespelledOnce (before ++ flag :: after) (before ++ flag' :: after)
  | again {l : List String} {flag : String} (h : flag ∈ l) : RespelledOnce l (flag :: l)

/-- Two SQL modes whose flags differ only in how they are written. -/
def Respelled (a b : String) : Prop :=
  Relation.EqvGen RespelledOnce (writtenFlags a) (writtenFlags b)

theorem RespelledOnce.exists_iff (h : RespelledOnce l l') (flag : String) :
    (∃ f ∈ l, Text.upperAscii f = Text.upperAscii flag) ↔
      ∃ f ∈ l', Text.upperAscii f = Text.upperAscii flag := by
  cases h with
  | reorder h => simp only [h.mem_iff]
  | @recase before after f f' h =>
    simp only [List.mem_append, List.mem_cons, or_and_right, exists_or, exists_eq_left, h]
  | again h =>
    constructor
    · rintro ⟨f, hf, hflag⟩
      exact ⟨f, List.mem_cons_of_mem _ hf, hflag⟩
    · rintro ⟨f, hf, hflag⟩
      rcases List.mem_cons.mp hf with rfl | hf
      · exact ⟨_, h, hflag⟩
      · exact ⟨f, hf, hflag⟩

/-- However the flags of an SQL mode are written, it has the same ones. -/
theorem Respelled.hasFlag_iff (h : Respelled a b) (flag : String) :
    HasFlag a flag ↔ HasFlag b flag := by
  rw [hasFlag_iff_written, hasFlag_iff_written]
  unfold Respelled at h
  generalize writtenFlags a = l, writtenFlags b = l' at h ⊢
  induction h with
  | rel _ _ h => exact h.exists_iff flag
  | refl => exact Iff.rfl
  | symm _ _ _ ih => exact ih.symm
  | trans _ _ _ _ _ ih ih' => exact ih.trans ih'

theorem equivalence_sameSqlMode : Equivalence fun a b => sameSqlMode a b = true where
  refl := fun _ => sameSqlMode_iff_hasFlag.mpr fun _ => Iff.rfl
  symm := fun h => sameSqlMode_iff_hasFlag.mpr fun flag =>
    (sameSqlMode_iff_hasFlag.mp h flag).symm
  trans := fun h h' => sameSqlMode_iff_hasFlag.mpr fun flag =>
    (sameSqlMode_iff_hasFlag.mp h flag).trans (sameSqlMode_iff_hasFlag.mp h' flag)

end SessionSettings

/-! ## The conditions -/

namespace Reload

open SessionSettings

variable {record : Record} {previous : Option Record} {timestamp : Int}
  {table table' : Placeholder.Table} {replaced : SortedMap String} {token : String}
  {catalog : Option CatalogRoutine} {routine : CatalogRoutine} {session : SessionSettings}
  {setting : Setting} {reason : Reason}

/-- The token was recorded with another value than it has in the table. -/
def Changed (table : Placeholder.Table) (replaced : SortedMap String) (token : String) : Prop :=
  ∃ value, replaced.get? token = some value ∧ table.get? token ≠ some value

/-- The routine was created under the session's value of a setting. -/
def HasSetting (routine : CatalogRoutine) (session : SessionSettings) : Setting → Prop
  | .sqlMode => ∀ flag, HasFlag routine.sqlMode flag ↔ HasFlag session.sqlMode flag
  | .characterSet => Text.sameIgnoringCase routine.characterSet session.characterSet
  | .collation => Text.sameIgnoringCase routine.collation session.collation

/-- The place of a setting in the order in which they are compared. -/
def Setting.rank : Setting → Nat
  | sqlMode => 0
  | characterSet => 1
  | collation => 2

/-- Nothing has changed since the routine was recorded. -/
structure IsCurrent (record : Record) (timestamp : Int) (table : Placeholder.Table)
    (catalog : Option CatalogRoutine) (session : SessionSettings) : Prop where
  timestamp : record.timestamp = timestamp
  tokens : ∀ token, ¬ Changed table record.replaced token
  settings : ∃ routine, catalog = some routine ∧ ∀ setting, HasSetting routine session setting

/-- The first thing that has changed since the routine was recorded. -/
inductive FirstChange (record : Record) (timestamp : Int) (table : Placeholder.Table)
    (catalog : Option CatalogRoutine) (session : SessionSettings) : Reason → Prop
  | source (htime : record.timestamp ≠ timestamp) :
      FirstChange record timestamp table catalog session
        (.sourceModified record.timestamp timestamp)
  | placeholder {token : String} (htime : record.timestamp = timestamp)
      (hchanged : Changed table record.replaced token)
      (hleast : ∀ other, Changed table record.replaced other → token ≤ other) :
      FirstChange record timestamp table catalog session (.placeholderChanged token)
  | database (htime : record.timestamp = timestamp)
      (htokens : ∀ token, ¬ Changed table record.replaced token) (hcatalog : catalog = none) :
      FirstChange record timestamp table catalog session .notInDatabase
  | session {routine : CatalogRoutine} {setting : Setting} (htime : record.timestamp = timestamp)
      (htokens : ∀ token, ¬ Changed table record.replaced token) (hcatalog : catalog = some routine)
      (hearlier : ∀ earlier : Setting, earlier.rank < setting.rank →
        HasSetting routine session earlier)
      (hchanged : ¬ HasSetting routine session setting) :
      FirstChange record timestamp table catalog session (.sessionChanged setting)

/-! ## The decision -/

theorem changedToken?_eq_none_iff_changed :
    changedToken? table replaced = none ↔ ∀ token, ¬ Changed table replaced token := by
  rw [Placeholder.changedToken?_eq_none_iff]
  simp [Changed]

theorem least_of_changedToken? (h : changedToken? table replaced = some token) :
    Changed table replaced token ∧ ∀ other, Changed table replaced other → token ≤ other := by
  obtain ⟨⟨_, value⟩, hfind, rfl⟩ := Option.map_eq_some_iff.mp h
  obtain ⟨hne, before, after, hentries, hbefore⟩ := List.find?_eq_some_iff_append.mp hfind
  have hmem : (_, value) ∈ replaced.entries := hentries ▸ List.mem_append_right _ List.mem_cons_self
  refine ⟨⟨value, SortedMap.get?_eq_some_iff.mpr hmem, by simpa using hne⟩, ?_⟩
  rintro other ⟨value', hget, hne'⟩
  have hmem' := SortedMap.get?_eq_some_iff.mp hget
  have hsorted := replaced.sorted
  rw [hentries] at hmem' hsorted
  rcases List.mem_append.mp hmem' with hmem' | hmem'
  · exact absurd (hbefore _ hmem') (by simpa using hne')
  · rcases List.mem_cons.mp hmem' with heq | hmem'
    · exact (Prod.mk.inj heq).1 ▸ String.le_refl other
    · exact String.not_lt.mp (String.lt_asymm
        (List.rel_of_pairwise_cons (List.pairwise_append.mp hsorted).2.1 hmem'))

/-- The token that is named is the least that has changed. -/
theorem changedToken?_eq_some_iff :
    changedToken? table replaced = some token ↔
      Changed table replaced token ∧ ∀ other, Changed table replaced other → token ≤ other := by
  refine ⟨least_of_changedToken?, fun ⟨hchanged, hleast⟩ => ?_⟩
  cases hfound : changedToken? table replaced with
  | none => exact absurd hchanged (changedToken?_eq_none_iff_changed.mp hfound token)
  | some found =>
    obtain ⟨hchanged', hleast'⟩ := least_of_changedToken? hfound
    rw [String.le_antisymm (hleast found hchanged') (hleast' token hchanged)]

theorem forall_setting {P : Setting → Prop} :
    (∀ setting, P setting) ↔ P .sqlMode ∧ P .characterSet ∧ P .collation := by
  constructor
  · exact fun h => ⟨h .sqlMode, h .characterSet, h .collation⟩
  · rintro ⟨hmode, hcharacters, hcollation⟩ (_ | _ | _)
    · exact hmode
    · exact hcharacters
    · exact hcollation

theorem changedSetting?_eq_none_iff_hasSetting :
    changedSetting? routine session = none ↔ ∀ setting, HasSetting routine session setting := by
  rw [changedSetting?_eq_none_iff, sameSqlMode_iff_hasFlag, forall_setting]
  exact Iff.rfl

/-- The setting that is named is the first that differs. -/
theorem changedSetting?_eq_some_iff :
    changedSetting? routine session = some setting ↔
      (∀ earlier : Setting, earlier.rank < setting.rank → HasSetting routine session earlier) ∧
        ¬ HasSetting routine session setting := by
  have hmode : HasSetting routine session .sqlMode ↔
      sameSqlMode routine.sqlMode session.sqlMode = true := sameSqlMode_iff_hasFlag.symm
  have hcharacters : HasSetting routine session .characterSet ↔
      Text.sameIgnoringCase routine.characterSet session.characterSet = true := Iff.rfl
  have hcollation : HasSetting routine session .collation ↔
      Text.sameIgnoringCase routine.collation session.collation = true := Iff.rfl
  unfold changedSetting?
  rw [forall_setting]
  cases setting <;> simp only [hmode, hcharacters, hcollation, Setting.rank] <;>
    cases sameSqlMode routine.sqlMode session.sqlMode <;>
    cases Text.sameIgnoringCase routine.characterSet session.characterSet <;>
    cases Text.sameIgnoringCase routine.collation session.collation <;> simp

/-- A record is current if no change is found. -/
theorem change?_eq_none_iff_isCurrent :
    change? record timestamp table catalog session = none ↔
      IsCurrent record timestamp table catalog session := by
  rw [change?_eq_none_iff, changedToken?_eq_none_iff_changed]
  simp only [changedSetting?_eq_none_iff_hasSetting]
  exact ⟨fun ⟨htime, htokens, hsettings⟩ => ⟨htime, htokens, hsettings⟩,
    fun h => ⟨h.timestamp, h.tokens, h.settings⟩⟩

/-- The change that is found is the first one. -/
theorem change?_eq_some_iff :
    change? record timestamp table catalog session = some reason ↔
      FirstChange record timestamp table catalog session reason := by
  unfold change?
  constructor
  · intro h
    split at h
    · rename_i htime
      cases h
      exact .source htime
    rename_i htime
    have htime := Decidable.not_not.mp htime
    split at h
    · rename_i token htoken
      cases h
      obtain ⟨hchanged, hleast⟩ := changedToken?_eq_some_iff.mp htoken
      exact .placeholder htime hchanged hleast
    rename_i htoken
    have htokens := changedToken?_eq_none_iff_changed.mp htoken
    split at h
    · cases h
      exact .database htime htokens rfl
    · obtain ⟨setting, hsetting, rfl⟩ := Option.map_eq_some_iff.mp h
      obtain ⟨hearlier, hchanged⟩ := changedSetting?_eq_some_iff.mp hsetting
      exact .session htime htokens rfl hearlier hchanged
  · intro h
    cases h with
    | source htime => rw [if_pos htime]
    | placeholder htime hchanged hleast =>
      rw [if_neg (not_not_intro htime), changedToken?_eq_some_iff.mpr ⟨hchanged, hleast⟩]
    | database htime htokens hcatalog =>
      rw [if_neg (not_not_intro htime), changedToken?_eq_none_iff_changed.mpr htokens, hcatalog]
    | session htime htokens hcatalog hearlier hchanged =>
      rw [if_neg (not_not_intro htime), changedToken?_eq_none_iff_changed.mpr htokens, hcatalog]
      simp only [changedSetting?_eq_some_iff.mpr ⟨hearlier, hchanged⟩, Option.map_some]

/-! ## What the decision does not depend on -/

/-- The tables differ in entries for other tokens only: the key of each such entry is not the upper
case of any of these tokens. -/
def SameFor (tokens : List String) (table table' : Placeholder.Table) : Prop :=
  ∀ key, table.values.get? key ≠ table'.values.get? key →
    ∀ token ∈ tokens, Text.uppercase token ≠ key

theorem SameFor.get?_eq {tokens : List String} (h : SameFor tokens table table')
    (htoken : token ∈ tokens) : table.get? token = table'.get? token :=
  Decidable.byContradiction fun hne => h _ hne token htoken rfl

/-- Tables that agree on the recorded tokens show the same changes. -/
theorem SameFor.changed_iff (h : SameFor replaced.keys table table') :
    Changed table replaced token ↔ Changed table' replaced token := by
  refine exists_congr fun value => and_congr_right fun hget => ?_
  rw [h.get?_eq (SortedMap.mem_keys_iff.mpr ⟨value, hget⟩)]

theorem SameFor.changedToken?_eq (h : SameFor replaced.keys table table') :
    changedToken? table replaced = changedToken? table' replaced := by
  refine Option.ext fun token => ?_
  simp only [changedToken?_eq_some_iff, h.changed_iff]

theorem change?_congr_table (h : SameFor record.replaced.keys table table') :
    change? record timestamp table catalog session =
      change? record timestamp table' catalog session := by
  unfold change?
  rw [h.changedToken?_eq]

theorem changedSetting?_congr_sqlMode {mode mode' : String} (h : Respelled routine.sqlMode mode)
    (h' : Respelled session.sqlMode mode') :
    changedSetting? routine session =
      changedSetting? { routine with sqlMode := mode } { session with sqlMode := mode' } := by
  have hmode : sameSqlMode routine.sqlMode session.sqlMode = sameSqlMode mode mode' := by
    refine Bool.eq_iff_iff.mpr ?_
    simp only [sameSqlMode_iff_hasFlag, h.hasFlag_iff, h'.hasFlag_iff]
  rw [changedSetting?, changedSetting?, hmode]

/-- A routine is left alone exactly if its record is current, and else loaded for the first change.
Entries of the table for tokens that were not recorded do not matter, nor does the way in which the
flags of either SQL mode are written. To be the same SQL mode is an equivalence. -/
theorem firstChange_of_reason :
    (∀ previous timestamp table catalog session,
      (reason? previous timestamp table catalog session = none ↔
        ∃ record, previous = some record ∧ IsCurrent record timestamp table catalog session) ∧
      ∀ reason, reason? previous timestamp table catalog session = some reason ↔
        previous = none ∧ reason = .firstSight ∨
          ∃ record, previous = some record ∧
            FirstChange record timestamp table catalog session reason) ∧
    (∀ previous timestamp table table' catalog session,
      (∀ record, previous = some record → SameFor record.replaced.keys table table') →
      reason? previous timestamp table catalog session =
        reason? previous timestamp table' catalog session) ∧
    (∀ previous timestamp table routine session mode mode',
      Respelled routine.sqlMode mode → Respelled session.sqlMode mode' →
      reason? previous timestamp table (some routine) session =
        reason? previous timestamp table (some { routine with sqlMode := mode })
          { session with sqlMode := mode' }) ∧
    Equivalence fun a b => sameSqlMode a b = true := by
  refine ⟨?_, ?_, ?_, equivalence_sameSqlMode⟩
  · rintro (_ | record) timestamp table catalog session
    · simp [reason?, eq_comm]
    · simp [reason?, change?_eq_none_iff_isCurrent, change?_eq_some_iff]
  · rintro (_ | record) timestamp table table' catalog session h
    · rfl
    · exact change?_congr_table (h record rfl)
  · rintro (_ | record) timestamp table routine session mode mode' h h'
    · rfl
    · simp only [reason?, change?, changedSetting?_congr_sqlMode h h']

/-- A record with two tokens. -/
def tokenRecord : Record where
  routineName := "p"
  designation := .none
  returnType := none
  parameters := []
  replaced := .ofList [("@a@", "1"), ("@b@", "2")]
  timestamp := 5
  bulkInsert := none
  doc := ⟨"", "", []⟩

/-- A session with two flags. -/
def flagSession : SessionSettings :=
  ⟨"A,B", "utf8", "c"⟩

/-- Of two changed tokens the least is named, whether or not the routine is in the database and
whatever the table has for a third. With the recorded values the routine is left alone, also if its
flags stand in another order, in another case and twice, or if its character set and its collation
are written in another case. The collation is named if it differs in more than its case. -/
theorem firstChange_of_reason_example :
    FirstChange tokenRecord 5 (.ofList [("@A@", "3")]) none flagSession
        (.placeholderChanged "@a@") ∧
      reason? (some tokenRecord) 5 (.ofList [("@A@", "3"), ("@c@", "x")]) none flagSession =
        some (.placeholderChanged "@a@") ∧
      IsCurrent tokenRecord 5 (.ofList [("@A@", "1"), ("@B@", "2")])
        (some (created flagSession "p" .procedure)) flagSession ∧
      reason? (some tokenRecord) 5 (.ofList [("@A@", "1"), ("@B@", "2")])
          (some { created flagSession "p" .procedure with sqlMode := "b, A,B" }) flagSession =
        none ∧
      IsCurrent tokenRecord 5 (.ofList [("@A@", "1"), ("@B@", "2")])
        (some ⟨"p", .procedure, "A,B", "UTF8", "C"⟩) flagSession ∧
      FirstChange tokenRecord 5 (.ofList [("@A@", "1"), ("@B@", "2")])
        (some ⟨"p", .procedure, "A,B", "Utf8", "ç"⟩) flagSession (.sessionChanged .collation) := by
  have hchanged : reason? (some tokenRecord) 5 (.ofList [("@A@", "3")]) none flagSession =
      some (.placeholderChanged "@a@") := by
    decide +kernel
  have hcurrent : reason? (some tokenRecord) 5 (.ofList [("@A@", "1"), ("@B@", "2")])
      (some (created flagSession "p" .procedure)) flagSession = none := by
    decide +kernel
  have hrecased : reason? (some tokenRecord) 5 (.ofList [("@A@", "1"), ("@B@", "2")])
      (some ⟨"p", .procedure, "A,B", "UTF8", "C"⟩) flagSession = none := by
    decide +kernel
  have hcollation : reason? (some tokenRecord) 5 (.ofList [("@A@", "1"), ("@B@", "2")])
      (some ⟨"p", .procedure, "A,B", "Utf8", "ç"⟩) flagSession =
        some (.sessionChanged .collation) := by
    decide +kernel
  obtain ⟨hreason, htable, hmode, -⟩ := firstChange_of_reason
  have hleft : ∀ {table catalog}, reason? (some tokenRecord) 5 table catalog flagSession = none →
      IsCurrent tokenRecord 5 table catalog flagSession := by
    intro table catalog h
    obtain ⟨record, heq, hrecord⟩ := (hreason _ _ _ _ _).1.mp h
    cases heq
    exact hrecord
  have hfirst : ∀ {table catalog reason},
      reason? (some tokenRecord) 5 table catalog flagSession = some reason →
      FirstChange tokenRecord 5 table catalog flagSession reason := by
    intro table catalog reason h
    obtain ⟨heq, -⟩ | ⟨record, heq, hrecord⟩ := (hreason _ _ _ _ _).2 _ |>.mp h
    · cases heq
    · cases heq
      exact hrecord
  refine ⟨hfirst hchanged, ?_, hleft hcurrent, ?_, hleft hrecased, hfirst hcollation⟩
  · rw [← hchanged]
    refine (htable _ _ _ _ _ _ ?_).symm
    rintro record h key hkey token htoken rfl
    cases h
    have hsame : ∀ token ∈ tokenRecord.replaced.keys,
        (Placeholder.Table.ofList [("@A@", "3")]).values.get? (Text.uppercase token) =
          (Placeholder.Table.ofList [("@A@", "3"), ("@c@", "x")]).values.get?
            (Text.uppercase token) := by
      decide +kernel
    exact hkey (hsame token htoken)
  · rw [← hcurrent]
    refine (hmode _ _ _ _ _ _ flagSession.sqlMode ?_ (.refl _)).symm
    have hwritten : writtenFlags "A,B" = ["A", "B"] := by decide +kernel
    have hrewritten : writtenFlags "b, A,B" = ["b", "A", "B"] := by decide +kernel
    have hagain : RespelledOnce ["A", "B"] ["B", "A", "B"] := .again (by decide)
    have hrecase : RespelledOnce ["B", "A", "B"] ["b", "A", "B"] :=
      @RespelledOnce.recase [] ["A", "B"] "B" "b" (by decide +kernel)
    change Relation.EqvGen RespelledOnce (writtenFlags "A,B") (writtenFlags "b, A,B")
    rw [hwritten, hrewritten]
    exact .trans _ _ _ (.rel _ _ hagain) (.rel _ _ hrecase)

end Reload

end RoutineLoader
