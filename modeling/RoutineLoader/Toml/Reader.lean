import RoutineLoader.Toml.Scalar

/-!
# Reading TOML documents

`Toml.parse` reads a document to its table, or refuses it. A table is opened by a header, by the
leading parts of a header below it, or by the leading parts of a key; `Origin` keeps which, because
it decides what may still be added: a header may open a table once, and a key may only go on with
tables that keys have opened.
-/

namespace RoutineLoader.Toml

/-! ## Values -/

/-- The items of an array behind its opening bracket, and what follows it. Blanks, line ends and
comments may stand anywhere, and a comma behind the last item. -/
def items? (item? : List Char → Option (Toml × List Char)) :
    (fuel : Nat) → List Char → Option (List Toml × List Char)
  | 0, _ => none
  | fuel + 1, s =>
    match skipSpace (s.length + 1) s with
    | ']' :: rest => some ([], rest)
    | s => do
      let (item, rest) ← item? s
      match skipSpace (rest.length + 1) rest with
      | ']' :: rest => some ([item], rest)
      | ',' :: rest =>
        let (items, rest) ← items? item? fuel rest
        some (item :: items, rest)
      | _ => none
where
  /-- The text behind blanks, line ends and comments. -/
  skipSpace : (fuel : Nat) → List Char → List Char
    | 0, s => s
    | fuel + 1, s =>
      match skipLineEnds s with
      | '#' :: rest => skipSpace fuel (skipComment ('#' :: rest))
      | rest => rest

/-- A pair of a key and a value: the leading parts of the key, the last one, and the value. -/
structure Pair where
  leading : List String
  key : String
  value : Toml

/-- A pair, and what follows it and the blanks behind it. -/
def pair? (value? : List Char → Option (Toml × List Char)) (s : List Char) :
    Option (Pair × List Char) := do
  let (leading, key, rest) ← key? s
  let rest ← dropChar? '=' rest
  let (value, rest) ← value? (skipBlanks rest)
  some (⟨leading, key, value⟩, skipBlanks rest)

/-- The pairs of an inline table behind its first one, and what follows its closing brace. -/
def morePairs? (value? : List Char → Option (Toml × List Char)) :
    (fuel : Nat) → List Char → Option (List Pair × List Char)
  | 0, _ => none
  | fuel + 1, s =>
    match s with
    | '\x7d' :: rest => some ([], rest)
    | ',' :: rest => do
      let (pair, rest) ← pair? value? rest
      let (pairs, rest) ← morePairs? value? fuel rest
      some (pair :: pairs, rest)
    | _ => none

/-- The pairs of an inline table behind its opening brace, and what follows its closing one. -/
def pairs? (value? : List Char → Option (Toml × List Char)) (s : List Char) :
    Option (List Pair × List Char) :=
  match skipBlanks s with
  | '\x7d' :: rest => some ([], rest)
  | s => do
    let (pair, rest) ← pair? value? s
    let (pairs, rest) ← morePairs? value? (rest.length + 1) rest
    some (pair :: pairs, rest)

/-! ## Tables under construction -/

/-- What opened a table. -/
inductive Origin
  | header
  | implied
  | key
  deriving DecidableEq

/-- What stands at a key of a table under construction: a finished value, a table, or the tables
of an array, the last one first. -/
inductive Node
  | leaf (value : Toml)
  | table (origin : Origin) (entries : List (String × Node))
  | tables (newestFirst : List (List (String × Node)))

/-- The entries of a table under construction, in the order in which they came. -/
abbrev Entries := List (String × Node)

/-- The entries with another node at a key that is there. -/
def Entries.replace (key : String) (node : Node) : Entries → Entries
  | [] => []
  | e :: rest => if e.1 = key then (key, node) :: rest else e :: replace key node rest

/-- Changes the table that the parts of a key lead to. Missing tables on the way are opened as
`fresh` ones; with `ofKey`, the way may only go through tables that were not opened by a header of
their own. -/
def descend (fresh : Origin) (ofKey : Bool) (change : Origin → Entries → Option Entries) :
    List String → Origin → Entries → Option Entries
  | [], origin, entries => change origin entries
  | part :: parts, _, entries =>
    match entries.lookup part with
    | none =>
      (descend fresh ofKey change parts fresh []).map fun inner =>
        entries ++ [(part, .table fresh inner)]
    | some (.leaf _) => none
    | some (.table origin inner) =>
      if ofKey && origin = .header then none
      else
        (descend fresh ofKey change parts origin inner).map fun inner =>
          Entries.replace part (.table origin inner) entries
    | some (.tables []) => none
    | some (.tables (newest :: older)) =>
      (descend fresh ofKey change parts .header newest).map fun newest =>
        Entries.replace part (.tables (newest :: older)) entries

/-- Adds a pair to a table. -/
def addPair (pair : Pair) (entries : Entries) : Option Entries :=
  descend .key true
    (fun origin inner =>
      if !pair.leading.isEmpty && origin ≠ .key then none
      else if (inner.lookup pair.key).isSome then none
      else some (inner ++ [(pair.key, .leaf pair.value)]))
    pair.leading .header entries

mutual

/-- The finished value of a node. -/
def Node.finish : Node → Toml
  | .leaf value => value
  | .table _ entries => .table (finishEntries entries)
  | .tables newestFirst => .array (finishTables newestFirst).reverse

/-- The finished entries of a table. -/
def finishEntries : List (String × Node) → List (String × Toml)
  | [] => []
  | (key, node) :: rest => (key, node.finish) :: finishEntries rest

/-- The finished tables of an array. -/
def finishTables : List (List (String × Node)) → List Toml
  | [] => []
  | entries :: rest => .table (finishEntries entries) :: finishTables rest

end

/-- The value at the start of a text, with at most `depth` arrays and inline tables in each other,
and what follows. -/
def value? : (depth : Nat) → List Char → Option (Toml × List Char)
  | 0, s => scalar? s
  | depth + 1, s =>
    match s with
    | '[' :: rest =>
      (items? (value? depth) (rest.length + 1) rest).map fun found =>
        (.array found.1, found.2)
    | '\x7b' :: rest => do
      let (pairs, rest) ← pairs? (value? depth) rest
      let entries ← pairs.foldlM (fun entries pair => addPair pair entries) []
      some (.table (finishEntries entries), rest)
    | _ => scalar? s

/-! ## Documents -/

/-- A part of a document. -/
inductive Item
  | pair (pair : Pair)
  | header (leading : List String) (key : String)
  | arrayHeader (leading : List String) (key : String)

/-- The header between brackets that starts a text, and what follows it. -/
def header? (s : List Char) : Option (Item × List Char) :=
  match s with
  | '[' :: '[' :: rest => do
    let (leading, key, rest) ← key? rest
    let rest ← dropChar? ']' rest
    let rest ← dropChar? ']' rest
    some (.arrayHeader leading key, rest)
  | '[' :: rest => do
    let (leading, key, rest) ← key? rest
    let rest ← dropChar? ']' rest
    some (.header leading key, rest)
  | _ => none

/-- The parts of a document. -/
def documentItems? : (fuel : Nat) → List Char → Option (List Item)
  | 0, _ => none
  | fuel + 1, s =>
    match skipBlanks s with
    | [] => some []
    | '[' :: rest => do
      let (item, rest) ← header? ('[' :: rest)
      let rest ← endOfLine? rest
      let more ← documentItems? fuel rest
      some (item :: more)
    | c :: rest =>
      if c = '#' ∨ c = '\n' ∨ c = '\r' then do
        let rest ← endOfLine? (c :: rest)
        documentItems? fuel rest
      else do
        let (pair, rest) ← pair? (value? nestingLimit) (c :: rest)
        let rest ← endOfLine? rest
        let more ← documentItems? fuel rest
        some (.pair pair :: more)

/-- The table that the pairs behind a header go to. -/
structure OpenTable where
  leading : List String
  key : String
  /-- Whether the table is a further one of an array. -/
  ofArray : Bool

/-- A document under construction: the finished tables, the open one, and the entries of the open
one. Before the first header the open table is the document itself. -/
structure Building where
  finished : Entries
  current : Option OpenTable
  entries : Entries

/-- Puts the open table to its place. -/
def Building.close (b : Building) : Option Entries :=
  match b.current with
  | none => some b.entries
  | some t =>
    descend .implied false
      (fun _ inner =>
        match inner.lookup t.key with
        | none => some (inner ++ [(t.key, .table .header b.entries)])
        | some (.tables older) =>
          if t.ofArray then some (Entries.replace t.key (.tables (b.entries :: older)) inner)
          else none
        | some _ => none)
      t.leading .header b.finished

/-- The entries of a table that a header may go on with, and the entries around it without it. A
table that only longer headers have opened is taken up again. -/
def takeUp (key : String) (entries : Entries) : Option (Entries × Entries) :=
  match entries.lookup key with
  | none => some ([], entries)
  | some (.table .implied inner) => some (inner, entries.filter fun e => e.1 ≠ key)
  | some _ => none

/-- Takes in one part of a document. -/
def Building.add (b : Building) (item : Item) : Option Building :=
  match item with
  | .pair pair => (addPair pair b.entries).map fun entries => { b with entries }
  | .header leading key => do
    let finished ← b.close
    let rest ← descend .implied false (fun _ inner => (takeUp key inner).map Prod.snd) leading
      .header finished
    let resumed ← resume leading key finished
    some ⟨rest, some ⟨leading, key, false⟩, resumed⟩
  | .arrayHeader leading key => do
    let finished ← b.close
    let finished ← descend .implied false
      (fun _ inner =>
        match inner.lookup key with
        | none => some (inner ++ [(key, .tables [])])
        | some (.tables _) => some inner
        | some _ => none)
      leading .header finished
    some ⟨finished, some ⟨leading, key, true⟩, []⟩
where
  /-- The entries that the table of a header has already. -/
  resume : List String → String → Entries → Option Entries
    | [], key, entries => (takeUp key entries).map Prod.fst
    | part :: parts, key, entries =>
      match entries.lookup part with
      | some (.table _ inner) => resume parts key inner
      | some (.tables (newest :: _)) => resume parts key newest
      | some _ => none
      | none => some []

/-- The table of a document. -/
def parse (text : String) : Option (List (String × Toml)) := do
  let s := match text.toList with
    | '\ufeff' :: s => s
    | s => s
  let items ← documentItems? (s.length + 1) s
  let b ← items.foldlM Building.add ⟨[], none, []⟩
  let entries ← b.close
  some (finishEntries entries)

end RoutineLoader.Toml
