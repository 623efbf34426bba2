import RoutineLoader.Proofs.Compile.Protocol

/-!
# Documented parameters

Both the advisories and the documentation in a record ask the doc comment about the parameter of a
name. The first entry of the name answers (`description?_eq_some_iff`), and none does exactly if the
comment does not list the name (`description?_eq_none_iff`). `Reconciles` says what the two come to
for any lists, names that stand in them twice included, and `reconciles_advisories` that a load
reports these advisories behind the warnings that there are, and records this documentation.
-/

namespace RoutineLoader

/-! ## The entry of a name -/

namespace DocComment

variable {doc : DocComment} {name text : String}

/-- The documented names, in their order. -/
def names (doc : DocComment) : List String :=
  doc.parameters.map Prod.fst

/-- The first entry of a name has this description. -/
def IsFirstEntry (doc : DocComment) (name text : String) : Prop :=
  ∃ earlier later, doc.parameters = earlier ++ (name, text) :: later ∧
    name ∉ earlier.map Prod.fst

theorem forall_name_ne_iff {entries : List (String × String)} :
    (∀ entry ∈ entries, name != entry.1) ↔ name ∉ entries.map Prod.fst := by
  simp only [bne_iff_ne, List.mem_map, not_exists, not_and]
  exact forall₂_congr fun _ _ => ne_comm

theorem description?_eq_some_iff :
    doc.description? name = some text ↔ doc.IsFirstEntry name text := by
  simp only [description?, List.lookup_eq_some_iff, forall_name_ne_iff, IsFirstEntry]

theorem description?_eq_none_iff : doc.description? name = none ↔ name ∉ doc.names := by
  rw [description?, List.lookup_eq_none_iff, forall_name_ne_iff, names]

end DocComment

/-! ## Advisories and documentation -/

namespace Parameter

variable {parameters : List Parameter} {doc : DocComment} {name other : String}

/-- The advisory about a parameter that is not documented. -/
def missingAdvisory (name : String) : Diagnostic :=
  .warning s!"Parameter '{name}' is missing from the doc block" .none

/-- The advisory about a documented name that no parameter has. -/
def needlessAdvisory (name : String) : Diagnostic :=
  .warning s!"Documented parameter '{name}' is not a parameter of the routine" .none

theorem missingAdvisory_inj : missingAdvisory name = missingAdvisory other ↔ name = other := by
  simp [missingAdvisory, Diagnostic.warning, toString, ← String.toList_inj]

theorem needlessAdvisory_inj : needlessAdvisory name = needlessAdvisory other ↔ name = other := by
  simp [needlessAdvisory, Diagnostic.warning, toString, ← String.toList_inj]

theorem missingAdvisory_ne_needlessAdvisory (name other : String) :
    missingAdvisory name ≠ needlessAdvisory other := by
  simp [missingAdvisory, needlessAdvisory, Diagnostic.warning, toString, ← String.toList_inj]

/-- What comes of comparing parameters with a doc comment: the warnings about them, and their
documentation. -/
structure Reconciles (parameters : List Parameter) (doc : DocComment) (warnings : List Diagnostic)
    (block : RoutineDoc) : Prop where
  /-- One warning for each parameter whose name is not documented, then one for each documented
  entry whose name no parameter has, both in their order. -/
  warnings_eq : warnings =
    ((parameters.map (·.name)).filter (· ∉ doc.names)).map missingAdvisory ++
      (doc.names.filter (· ∉ parameters.map (·.name))).map needlessAdvisory
  /-- There are none exactly if the names are the same, ... -/
  warnings_eq_nil_iff : warnings = [] ↔ ∀ name, name ∈ parameters.map (·.name) ↔ name ∈ doc.names
  /-- ... and none about a name that is on both sides, whatever its description. -/
  missing_mem_iff : ∀ name, missingAdvisory name ∈ warnings ↔
    name ∈ parameters.map (·.name) ∧ name ∉ doc.names
  needless_mem_iff : ∀ name, needlessAdvisory name ∈ warnings ↔
    name ∈ doc.names ∧ name ∉ parameters.map (·.name)
  /-- The documentation lists the parameters with their types, ... -/
  entries : block.parameters.map (fun entry => (entry.name, entry.dataType)) =
    parameters.map fun p => (p.name, p.descriptor)
  /-- ... each with the description of the first entry of its name, ... -/
  description : ∀ entry ∈ block.parameters, ∀ text, doc.IsFirstEntry entry.name text →
    entry.description = text
  /-- ... and with an empty one only if there is none or that one is empty. -/
  description_eq_empty_iff : ∀ entry ∈ block.parameters, entry.description = "" ↔
    entry.name ∉ doc.names ∨ doc.IsFirstEntry entry.name ""

/-! ### The warnings -/

theorem advisories_eq (parameters : List Parameter) (doc : DocComment) :
    advisories parameters doc =
      ((parameters.map (·.name)).filter (· ∉ doc.names)).map missingAdvisory ++
        (doc.names.filter (· ∉ parameters.map (·.name))).map needlessAdvisory := by
  have hmissing : ∀ p : Parameter, (doc.description? p.name).isNone = decide (p.name ∉ doc.names) :=
    fun p => by rw [Bool.eq_iff_iff, Option.isNone_iff_eq_none, DocComment.description?_eq_none_iff,
      decide_eq_true_iff]
  have hneedless : ∀ d : String × String, (!parameters.any fun p => p.name == d.1) =
      decide (d.1 ∉ parameters.map (·.name)) := fun d => by
    rw [Bool.eq_iff_iff, decide_eq_true_iff]
    simp
  simp only [advisories, hmissing, hneedless, DocComment.names, List.filter_map, List.map_map]
  rfl

theorem advisories_eq_nil_iff : advisories parameters doc = [] ↔
    ∀ name, name ∈ parameters.map (·.name) ↔ name ∈ doc.names := by
  rw [advisories_eq, List.append_eq_nil_iff, List.map_eq_nil_iff, List.map_eq_nil_iff,
    List.filter_eq_nil_iff, List.filter_eq_nil_iff]
  simp only [decide_eq_true_eq, Decidable.not_not]
  exact ⟨fun h name => ⟨h.1 name, h.2 name⟩, fun h => ⟨fun name => (h name).mp,
    fun name => (h name).mpr⟩⟩

theorem missingAdvisory_mem_iff : missingAdvisory name ∈ advisories parameters doc ↔
    name ∈ parameters.map (·.name) ∧ name ∉ doc.names := by
  have hneedless : missingAdvisory name ∉
      (doc.names.filter (· ∉ parameters.map (·.name))).map needlessAdvisory := fun hmem => by
    obtain ⟨other, -, heq⟩ := List.mem_map.mp hmem
    exact missingAdvisory_ne_needlessAdvisory _ _ heq.symm
  rw [advisories_eq, List.mem_append, or_iff_left hneedless, List.mem_map]
  simp only [missingAdvisory_inj, exists_eq_right, List.mem_filter, decide_eq_true_eq]

theorem needlessAdvisory_mem_iff : needlessAdvisory name ∈ advisories parameters doc ↔
    name ∈ doc.names ∧ name ∉ parameters.map (·.name) := by
  have hmissing : needlessAdvisory name ∉
      ((parameters.map (·.name)).filter (· ∉ doc.names)).map missingAdvisory := fun hmem => by
    obtain ⟨other, -, heq⟩ := List.mem_map.mp hmem
    exact missingAdvisory_ne_needlessAdvisory _ _ heq
  rw [advisories_eq, List.mem_append, or_iff_right hmissing, List.mem_map]
  simp only [needlessAdvisory_inj, exists_eq_right, List.mem_filter, decide_eq_true_eq]

/-! ### The documentation -/

theorem description_documented {p : Parameter} {text : String}
    (h : doc.IsFirstEntry p.name text) : (documented doc p).description = text := by
  rw [documented, DocComment.description?_eq_some_iff.mpr h, Option.getD_some]

theorem description_documented_eq_empty_iff {p : Parameter} :
    (documented doc p).description = "" ↔
      p.name ∉ doc.names ∨ doc.IsFirstEntry p.name "" := by
  rw [← DocComment.description?_eq_none_iff, ← DocComment.description?_eq_some_iff, documented]
  cases doc.description? p.name <;> simp

theorem reconciles_of (parameters : List Parameter) (doc : DocComment) :
    Reconciles parameters doc (advisories parameters doc) (.of doc parameters) where
  warnings_eq := advisories_eq parameters doc
  warnings_eq_nil_iff := advisories_eq_nil_iff
  missing_mem_iff _ := missingAdvisory_mem_iff
  needless_mem_iff _ := needlessAdvisory_mem_iff
  entries := List.map_map
  description := List.forall_mem_map.mpr fun _ _ _ => description_documented
  description_eq_empty_iff := List.forall_mem_map.mpr fun _ _ => description_documented_eq_empty_iff

/-! ## In a load -/

/-- Any parameters and any doc comment are reconciled, and a load that comes to these parameters
puts the advisories behind the warnings of the prepared routine and records the documentation. -/
theorem reconciles_advisories (parameters : List Parameter) (doc : DocComment) :
    Reconciles parameters doc (advisories parameters doc) (.of doc parameters) ∧
      ∀ session (p : Prepared) catalog server log (record : Record) warnings log', p.doc = doc →
        record.parameters = parameters →
        Compile.load session p catalog server log = (.ok (record, warnings), log') →
          warnings = p.diagnostics ++ advisories parameters doc ∧
            record.doc = .of doc parameters := by
  refine ⟨reconciles_of parameters doc, ?_⟩
  rintro session p catalog server log record warnings log' rfl rfl hload
  obtain ⟨-, hreconcile⟩ := Compile.load_eq_ok_iff.mp hload
  obtain ⟨_, _, merged, _, -, -, -, rfl, rfl⟩ := Compile.reconcile_eq_ok_iff.mp hreconcile
  exact ⟨rfl, rfl⟩

/-! ### Names that stand twice -/

/-- A doc comment with an empty description, a name that no parameter has, and two descriptions of
one name. -/
def listedDoc : DocComment :=
  ⟨"Short.", "", [("b", ""), ("c", "C."), ("a", "First."), ("a", "Second.")]⟩

/-- A routine with a warning. -/
def listedPrepared : Prepared where
  source := ⟨⟨"/work/p.psql"⟩, "", 7⟩
  routineName := "p"
  kind := .procedure
  designation := .none
  returnType := none
  replaced := .empty
  extended := []
  doc := listedDoc
  code := "create procedure p(a int, b int, d int, d int) select 1"
  diagnostics := [.warning "earlier" .none]

/-- The parameters that the server has for the routine. -/
def listedParameters : List Parameter :=
  ["a", "b", "d", "d"].map fun name => ⟨name, "int", "int(11)", none, none, none⟩

/-- A server that says so. -/
def listingServer : Server where
  execute _ _ := .ok ()
  query _ _ := .ok (listedParameters.map fun p =>
    .ofList [("parameter_name", some p.name), ("data_type", some p.dataType),
      ("dtd_identifier", some p.descriptor)])
  close _ := .ok ()

/-- The entry that no parameter has and both parameters that are not documented are reported, the
parameter with an empty description is not. -/
theorem reconciles_advisories_listed : ∃ record log',
    Compile.load ⟨"A", "utf8", "c"⟩ listedPrepared none listingServer [] =
        (.ok (record, [.warning "earlier" .none, missingAdvisory "d", missingAdvisory "d",
          needlessAdvisory "c"]), log') ∧
      record.doc.parameters.map (·.description) = ["First.", "", "", ""] := by
  have hparameters : (Compile.load ⟨"A", "utf8", "c"⟩ listedPrepared none listingServer
      []).1.toOption.map (·.1.parameters) = some listedParameters := by
    decide +kernel
  have hadvisories : advisories listedParameters listedDoc =
      [missingAdvisory "d", missingAdvisory "d", needlessAdvisory "c"] := by
    decide +kernel
  rcases hload : Compile.load ⟨"A", "utf8", "c"⟩ listedPrepared none listingServer [] with
    ⟨e | ⟨record, warnings⟩, log'⟩
  · rw [hload] at hparameters
    cases hparameters
  · rw [hload] at hparameters
    obtain ⟨rfl, hdoc⟩ := (reconciles_advisories listedParameters listedDoc).2 _ _ _ _ _ _ _ _ rfl
      (Option.some.inj hparameters) hload
    rw [hadvisories]
    refine ⟨record, log', rfl, ?_⟩
    rw [hdoc]
    decide +kernel

end Parameter

end RoutineLoader
