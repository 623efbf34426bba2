import RoutineLoader.Proofs.Except
import RoutineLoader.Proofs.Json.Printing
import RoutineLoader.Proofs.Text.Splitting
import RoutineLoader.Record.Decode
import RoutineLoader.Record.Encode
import RoutineLoader.ReturnType.Directive

/-!
# Stored records

A record survives being stored if its time of modification fits a signed word and its return type is
a union of distinct types (`Record.Storable`). Its stored form is then printable
(`Record.isPrintable_toJson`) and is decoded to the record again (`Record.ofJson_toJson`), and every
record that was decoded is of this kind (`Record.storable_of_ofJson`). Each structure of a record
has a lemma of its own, and the fields that may be absent are the only ones that split a proof.
-/

namespace RoutineLoader

open Json

/-! ## Parts -/

namespace Json

theorem asList_map {α : Type} {read : Json → Except DecodeError α} {encode : α → Json} {l : List α}
    (h : ∀ a ∈ l, read (encode a) = .ok a) : asList read (.array (l.map encode)) = .ok l := by
  rw [asList]
  induction l with
  | nil => rfl
  | cons a l ih =>
    rw [List.map_cons, readAll, h a List.mem_cons_self]
    simp only [ih fun b hb => h b (List.mem_cons_of_mem a hb)]
    rfl

theorem asList_ofStrings (texts : List String) : asList asString (ofStrings texts) = .ok texts :=
  asList_map fun _ _ => rfl

theorem asOption_of_eq_ok {α : Type} {read : Json → Except DecodeError α} {v : Json} {a : α}
    (hne : v ≠ .null) (h : read v = .ok a) : asOption read v = .ok (some a) := by
  rw [asOption, h]
  · rfl
  · exact hne

theorem asOption_ofString (text : String) : asOption asString (ofString text) = .ok (some text) :=
  rfl

theorem asChar_ofChar (c : Char) : asChar (ofChar c) = .ok c := by
  simp [asChar, ofChar, ofString]

theorem asInt64_ofInt {n : Int} (h : -Decimal.wordBound ≤ n ∧ n < Decimal.wordBound) :
    asInt64 (ofInt n) = .ok n := by
  obtain ⟨hlow, hhigh⟩ := h
  by_cases hn : n < 0
  · have hmagnitude : n.natAbs ≠ 0 ∧ n.natAbs ≤ Decimal.wordBound := by omega
    simp only [ofInt, hn, decide_true, asInt64, if_pos hmagnitude]
    congr 1
    omega
  · have hmagnitude : n.natAbs < Decimal.wordBound := by omega
    simp only [ofInt, hn, decide_false, asInt64, if_pos hmagnitude]
    congr 1
    omega

theorem asInt64_range {v : Json} {n : Int} (h : asInt64 v = .ok n) :
    -Decimal.wordBound ≤ n ∧ n < Decimal.wordBound := by
  unfold asInt64 at h
  split at h
  · split at h
    · cases h
      omega
    · cases h
  · split at h
    · cases h
      omega
    · cases h
  · cases h

theorem asMap_ofFields {α : Type} {read : Json → Except DecodeError α} {encode : α → Json}
    {m : SortedMap α} (h : ∀ e ∈ m.entries, read (encode e.2) = .ok e.2) :
    asMap read (ofFields (m.entries.map fun e => (e.1, encode e.2))) = .ok m := by
  have hentries : ∀ entries : List (String × α), (∀ e ∈ entries, read (encode e.2) = .ok e.2) →
      readEntries read ((entries.map fun e => (e.1, encode e.2)).map fun f => (some f.1, f.2)) =
        .ok entries := by
    intro entries
    induction entries with
    | nil => intro _; rfl
    | cons e entries ih =>
      intro h
      simp only [List.map_cons, readEntries, h e List.mem_cons_self]
      rw [ih fun e' he' => h e' (List.mem_cons_of_mem e he')]
      rfl
  simp only [asMap, ofFields, hentries m.entries h, Except.map, SortedMap.ofList_entries]

theorem asMap_ofTokens (tokens : SortedMap String) :
    asMap asString (ofTokens tokens) = .ok tokens :=
  asMap_ofFields fun _ _ => rfl

theorem eq_some_of_once {α : Type} {name : String} {read : Json → Except DecodeError α}
    {old o : Option α} {v : Json} (h : once name read old v = .ok o) :
    ∃ a, read v = .ok a ∧ o = some a := by
  cases old with
  | some _ => cases h
  | none =>
    cases hread : read v with
    | error e => rw [once, hread] at h; cases h
    | ok a =>
      rw [once, hread] at h
      cases h
      exact ⟨a, rfl, rfl⟩

theorem eq_some_of_required {α : Type} {f : Fields} {name : String} {o : Option α} {a : α}
    (h : required f name o = .ok a) : o = some a := by
  cases o <;> cases h
  rfl

/-- What holds of a state and is kept by each step holds at the end of the fields. -/
theorem foldFields_induction {σ : Type} {step : σ → String → Json → Except DecodeError σ}
    (P : σ → Prop) (hstep : ∀ s name v s', P s → step s name v = .ok s' → P s')
    {members : List (Option String × Json)} {s s' : σ} (hs : P s)
    (h : foldFields step s members = .ok s') : P s' := by
  induction members generalizing s with
  | nil =>
    cases h
    exact hs
  | cons member members ih =>
    obtain ⟨_ | name, v⟩ := member
    · cases h
    · rw [foldFields] at h
      cases hnext : step s name v with
      | error e => rw [hnext] at h; cases h
      | ok next =>
        rw [hnext] at h
        exact ih (hstep s name v next hs hnext) h

end Json

/-! ## Unions -/

namespace ReturnType

/-- Whether the union has a member and names none twice. -/
def IsSet (r : ReturnType) : Prop :=
  r.members ≠ [] ∧ r.members.Nodup

theorem nodup_distinct (l : List ScalarType) : (distinct l).Nodup := by
  induction l with
  | nil => exact List.nodup_nil
  | cons a l ih => exact List.nodup_cons.mpr ⟨by simp, ih.filter _⟩

theorem distinct_of_nodup {l : List ScalarType} (h : l.Nodup) : distinct l = l := by
  induction l with
  | nil => rfl
  | cons a l ih =>
    obtain ⟨ha, hl⟩ := List.nodup_cons.mp h
    rw [distinct, ih hl]
    congr 1
    refine List.filter_eq_self.mpr fun t ht => ?_
    have hne : t ≠ a := fun e => ha (e ▸ ht)
    simpa using hne

theorem isSet_of_parse {union : String} {r : ReturnType} (h : parse union = .ok r) : r.IsSet := by
  have hnonempty : ∀ pieces members, membersOf union pieces = .ok members → pieces ≠ [] →
      members ≠ [] := by
    intro pieces members hmembers hpieces
    cases pieces with
    | nil => exact absurd rfl hpieces
    | cons piece pieces =>
      simp only [membersOf] at hmembers
      split at hmembers
      · cases hmembers
      · cases hrest : membersOf union pieces with
        | error e => rw [hrest] at hmembers; cases hmembers
        | ok rest =>
          rw [hrest] at hmembers
          cases hmembers
          exact List.cons_ne_nil _ _
  unfold parse at h
  cases hmembers : membersOf union (Text.splitOn '|' union.toList) with
  | error e => rw [hmembers] at h; cases h
  | ok members =>
    rw [hmembers] at h
    cases h
    refine ⟨?_, nodup_distinct members⟩
    cases members with
    | nil => exact absurd rfl (hnonempty _ _ hmembers (Text.splitOn_ne_nil _ _))
    | cons t members => exact List.cons_ne_nil _ _

theorem isSet_mixed : mixed.IsSet :=
  ⟨by simp [mixed], by simp [mixed]⟩

/-- The return type of a source is a set of types. -/
theorem isSet_of_ofSource {s : Source} {designation : Designation} {returnType : Option ReturnType}
    {warnings : List Diagnostic} (h : ofSource s designation = .ok (returnType, warnings))
    {r : ReturnType} (hr : returnType = some r) : r.IsSet := by
  subst hr
  unfold ofSource at h
  split at h
  · cases h
  · split at h
    · cases h
      exact isSet_mixed
    · cases h
  · split at h
    · split at h
      · rename_i hunion
        cases h
        unfold ofArguments at hunion
        simp only at hunion
        split at hunion
        · split at hunion
          · rename_i hparse
            cases hunion
            exact isSet_of_parse hparse
          · cases hunion
        · cases hunion
      · cases h
    · cases h

theorem membersOf_words (union : String) (l : List ScalarType) :
    membersOf union (l.map fun t => t.word.toList) = .ok l := by
  have hword : ∀ t : ScalarType,
      ScalarType.ofWord? (String.ofList (Text.trim t.word.toList)) = some t := by
    intro t
    cases t <;> decide
  induction l with
  | nil => rfl
  | cons t l ih =>
    simp only [List.map_cons, membersOf, hword, ih]
    rfl

/-- A union is read back from the form in which it is written. -/
theorem parse_render {r : ReturnType} (h : r.IsSet) : parse r.render = .ok r := by
  have hbar : ∀ t : ScalarType, '|' ∉ t.word.toList := by
    intro t
    cases t <;> decide
  have hsplit : Text.splitOn '|' r.render.toList = r.members.map fun t => t.word.toList := by
    have hjoin : r.render.toList =
        Text.joinWith ['|'] (r.members.map fun t => t.word.toList) := by
      rw [render, Text.toList_intercalate, List.map_map]
      rfl
    rw [hjoin]
    refine Text.splitOn_joinWith (by simpa using h.1) fun piece hpiece => ?_
    obtain ⟨t, -, rfl⟩ := List.mem_map.mp hpiece
    exact hbar t
  rw [parse, hsplit, membersOf_words]
  exact congrArg (fun members => Except.ok (ReturnType.mk members)) (distinct_of_nodup h.2)

end ReturnType

/-! ## Structures -/

theorem ReturnType.ofJson_toJson {r : ReturnType} (h : r.IsSet) :
    ReturnType.ofJson r.toJson = .ok r := by
  have hparse := ReturnType.parse_render h
  simp only [ReturnType.ofJson, ReturnType.toJson, ofString, asString, bind, Except.bind, hparse,
    Except.mapError_ok]

theorem ReturnType.isSet_of_asOption {v : Json} {r : ReturnType}
    (h : asOption ReturnType.ofJson v = .ok (some r)) : r.IsSet := by
  unfold asOption at h
  split at h
  · cases h
  · obtain ⟨r', hread, hr⟩ := Except.map_eq_ok.mp h
    cases hr
    obtain ⟨union, -, hparse⟩ := Except.bind_eq_ok.mp hread
    exact ReturnType.isSet_of_parse (Except.mapError_eq_ok.mp hparse)

theorem ExtendedParameter.ofJson_toJson (e : ExtendedParameter) :
    ExtendedParameter.ofJson e.toJson = .ok e := by
  simp [ExtendedParameter.ofJson, ExtendedParameter.toJson, Json.ofFields, fields, foldFields,
    Draft.add, once, required, asChar_ofChar, asString, ofString, bind, Except.bind, Except.map]

theorem Parameter.ofJson_toJson (p : Parameter) : Parameter.ofJson p.toJson = .ok p := by
  obtain ⟨name, dataType, descriptor, characterSet, collation, extended⟩ := p
  have hextended : ∀ e : ExtendedParameter,
      asOption ExtendedParameter.ofJson e.toJson = .ok (some e) :=
    fun e => asOption_of_eq_ok (by simp [ExtendedParameter.toJson, Json.ofFields]) e.ofJson_toJson
  have hname : ∀ text, asString (ofString text) = .ok text := fun _ => rfl
  cases characterSet <;> cases collation <;> cases extended <;>
    simp [Parameter.ofJson, Parameter.toJson, Json.ofFields, Json.optional, fields, foldFields,
      Draft.add, once, required, hname, asOption_ofString, hextended, bind, Except.bind, Except.map]

theorem ParameterDoc.ofJson_toJson (p : ParameterDoc) : ParameterDoc.ofJson p.toJson = .ok p := by
  simp [ParameterDoc.ofJson, ParameterDoc.toJson, Json.ofFields, fields, foldFields, Draft.add,
    once, required, asString, ofString, bind, Except.bind, Except.map]

theorem RoutineDoc.ofJson_toJson (d : RoutineDoc) : RoutineDoc.ofJson d.toJson = .ok d := by
  have hparameters : asList ParameterDoc.ofJson (.array (d.parameters.map ParameterDoc.toJson)) =
      .ok d.parameters :=
    asList_map fun p _ => p.ofJson_toJson
  simp [RoutineDoc.ofJson, RoutineDoc.toJson, Json.ofFields, fields, foldFields, Draft.add, once,
    required, asString, ofString, hparameters, bind, Except.bind, Except.map]

theorem BulkInsertTable.ofJson_toJson (t : BulkInsertTable) :
    BulkInsertTable.ofJson t.toJson = .ok t := by
  simp [BulkInsertTable.ofJson, BulkInsertTable.toJson, Json.ofFields, Json.fields, foldFields,
    Draft.add, once, required, asString, ofString, asList_ofStrings, bind, Except.bind, Except.map]

theorem Json.isPlain_ofStrings (texts : List String) {depth : Nat} (h : depth ≠ 0) :
    (ofStrings texts).isPlain depth := by
  have hall : ∀ n, allPlain n (texts.map ofString) := by
    intro n
    induction texts with
    | nil => rfl
    | cons text texts ih => rw [List.map_cons, allPlain, ih]; rfl
  rw [ofStrings, isPlain, hall]
  simpa using h

theorem Designation.ofJson_toJson (d : Designation) {depth : Nat}
    (hdepth : depth + 1 < depthLimit) : Designation.ofJson depth d.toJson = .ok d := by
  have hcolumns : ∀ texts, (ofStrings texts).isPlain (depthLimit - depth - 1) :=
    fun texts => isPlain_ofStrings texts (by omega)
  have hname : ∀ text n, (ofString text).isPlain n := fun _ _ => rfl
  have hkeyword : keywordOf (ofString d.keyword) = .ok d.keyword := by
    cases d <;> rfl
  have hstring : ∀ text, asString (ofString text) = .ok text := fun _ => rfl
  cases d <;>
    simp only [keyword] at hkeyword <;>
    simp [Designation.ofJson, Designation.toJson, keyword, Json.ofFields, foldFields, Draft.add,
      once, hkeyword, hcolumns, hname, ofFields, Columns.add, required, hstring, asList_ofStrings,
      bind, Except.bind, Except.map]

/-! ## Records -/

namespace Record

/-- Whether the record can be stored without loss. -/
structure Storable (r : Record) : Prop where
  timestamp : -Decimal.wordBound ≤ r.timestamp ∧ r.timestamp < Decimal.wordBound
  returnType : ∀ t, r.returnType = some t → t.IsSet

/-- A storable record is decoded from its stored form. -/
theorem ofJson_toJson {r : Record} (h : r.Storable) {depth : Nat}
    (hdepth : depth + 2 < Designation.depthLimit) : Record.ofJson depth r.toJson = .ok r := by
  obtain ⟨routineName, designation, returnType, parameters, replaced, timestamp, bulkInsert,
    doc⟩ := r
  have hdesignation : Designation.ofJson (depth + 1) designation.toJson = .ok designation :=
    designation.ofJson_toJson hdepth
  have hreturn : ∀ t, returnType = some t →
      asOption ReturnType.ofJson t.toJson = .ok (some t) := fun t ht =>
    asOption_of_eq_ok (by simp [ReturnType.toJson, ofString])
      (ReturnType.ofJson_toJson (h.returnType t ht))
  have hparameters : asList Parameter.ofJson (.array (parameters.map Parameter.toJson)) =
      .ok parameters :=
    asList_map fun p _ => p.ofJson_toJson
  have htimestamp : asInt64 (ofInt timestamp) = .ok timestamp := asInt64_ofInt h.timestamp
  have hbulkInsert : ∀ t : BulkInsertTable,
      asOption BulkInsertTable.ofJson t.toJson = .ok (some t) := fun t =>
    asOption_of_eq_ok (by simp [BulkInsertTable.toJson, Json.ofFields]) t.ofJson_toJson
  have hname : ∀ text, asString (ofString text) = .ok text := fun _ => rfl
  cases returnType <;> cases bulkInsert <;>
    simp [Record.ofJson, Record.toJson, Json.ofFields, Json.optional, fields, foldFields,
      Draft.add, once, required, hname, hdesignation, hreturn, hparameters, asMap_ofTokens,
      htimestamp, hbulkInsert, RoutineDoc.ofJson_toJson, bind, Except.bind, Except.map]

theorem Draft.storable_of_add {depth : Nat} {d d' : Draft} {name : String} {v : Json}
    (hd : (∀ n, d.timestamp = some n → -Decimal.wordBound ≤ n ∧ n < Decimal.wordBound) ∧
      ∀ t, d.returnType = some (some t) → t.IsSet)
    (h : Draft.add depth d name v = .ok d') :
    (∀ n, d'.timestamp = some n → -Decimal.wordBound ≤ n ∧ n < Decimal.wordBound) ∧
      ∀ t, d'.returnType = some (some t) → t.IsSet := by
  unfold Draft.add at h
  split at h
  case h_3 =>
    obtain ⟨o, honce, hd'⟩ := Except.bind_eq_ok.mp h
    cases hd'
    obtain ⟨a, hread, rfl⟩ := eq_some_of_once honce
    refine ⟨hd.1, fun t ht => ?_⟩
    cases ht
    exact ReturnType.isSet_of_asOption hread
  case h_6 =>
    obtain ⟨o, honce, hd'⟩ := Except.bind_eq_ok.mp h
    cases hd'
    obtain ⟨a, hread, rfl⟩ := eq_some_of_once honce
    refine ⟨fun n hn => ?_, hd.2⟩
    cases hn
    exact asInt64_range hread
  case h_9 =>
    unfold passOver at h
    split at h
    · cases h
      exact hd
    · cases h
  all_goals
    obtain ⟨o, -, hd'⟩ := Except.bind_eq_ok.mp h
    cases hd'
    exact hd

/-- Every record that was decoded is storable. -/
theorem storable_of_ofJson {depth : Nat} {v : Json} {r : Record}
    (h : Record.ofJson depth v = .ok r) : r.Storable := by
  unfold Record.ofJson at h
  obtain ⟨f, -, h⟩ := Except.bind_eq_ok.mp h
  obtain ⟨d, hd, h⟩ := Except.bind_eq_ok.mp h
  have hstorable := foldFields_induction _ (fun _ _ _ _ hs hadd => Draft.storable_of_add hs hadd)
    ⟨by simp, by simp⟩ hd
  obtain ⟨routineName, -, h⟩ := Except.bind_eq_ok.mp h
  obtain ⟨designation, -, h⟩ := Except.bind_eq_ok.mp h
  obtain ⟨parameters, -, h⟩ := Except.bind_eq_ok.mp h
  obtain ⟨replaced, -, h⟩ := Except.bind_eq_ok.mp h
  obtain ⟨timestamp, htimestamp, h⟩ := Except.bind_eq_ok.mp h
  obtain ⟨doc, -, h⟩ := Except.bind_eq_ok.mp h
  cases h
  refine ⟨hstorable.1 _ (eq_some_of_required htimestamp), fun t ht => hstorable.2 t ?_⟩
  exact Option.join_eq_some_iff.mp ht

end Record

/-! ## Printability -/

namespace Json

@[simp] theorem isPrintable_ofString (text : String) : (ofString text).isPrintable :=
  rfl

@[simp] theorem isPrintable_ofChar (c : Char) : (ofChar c).isPrintable :=
  rfl

@[simp] theorem isPrintable_ofInt (n : Int) : (ofInt n).isPrintable :=
  rfl

@[simp] theorem isPrintable_array (items : List Json) :
    (Json.array items).isPrintable = items.all isPrintable := by
  rw [isPrintable]
  induction items with
  | nil => rfl
  | cons item items ih => rw [allPrintable, ih, List.all_cons]

@[simp] theorem isPrintable_ofStrings (texts : List String) : (ofStrings texts).isPrintable := by
  simp [ofStrings]

@[simp] theorem isPrintable_ofFields (fields : List (String × Json)) :
    (ofFields fields).isPrintable = fields.all fun f => f.2.isPrintable := by
  rw [ofFields, isPrintable]
  induction fields with
  | nil => rfl
  | cons f fields ih => rw [List.map_cons, allMembersPrintable, ih, List.all_cons]; rfl

@[simp] theorem all_optional {α : Type} (name : String) (encode : α → Json) (value : Option α) :
    ((optional name encode value).all fun f => f.2.isPrintable) =
      value.all fun a => (encode a).isPrintable := by
  cases value <;> simp [optional]

end Json

@[simp] theorem Designation.isPrintable_toJson (d : Designation) : d.toJson.isPrintable := by
  cases d <;> simp [toJson]

@[simp] theorem ExtendedParameter.isPrintable_toJson (e : ExtendedParameter) :
    e.toJson.isPrintable := by
  simp [toJson]

@[simp] theorem Parameter.isPrintable_toJson (p : Parameter) : p.toJson.isPrintable := by
  simp [toJson]

@[simp] theorem RoutineDoc.isPrintable_toJson (d : RoutineDoc) : d.toJson.isPrintable := by
  simp [toJson, ParameterDoc.toJson]

@[simp] theorem BulkInsertTable.isPrintable_toJson (t : BulkInsertTable) :
    t.toJson.isPrintable := by
  simp [toJson]

/-- The stored form of a record can be printed. -/
theorem Record.isPrintable_toJson (r : Record) : r.toJson.isPrintable := by
  simp [toJson, ofTokens, ReturnType.toJson]

end RoutineLoader
