import RoutineLoader.CompileError
import RoutineLoader.Source
import RoutineLoader.Text.Word

/-!
# The return type of a source

A routine that returns a scalar may declare its return type in a `return` directive and has the
type `mixed` otherwise; other routines have none, and a `return` directive there is ignored. Both
deviations are reported as warnings. `ReturnType.check` is the rule for a declared type: exactly
`mixed`, exactly `bool`, or any of the other four, with `null` among them if the routine may have
no row to answer.
-/

namespace RoutineLoader.ReturnType

/-- The name of the directive. -/
def directiveName : List Char :=
  ['r', 'e', 't', 'u', 'r', 'n']

/-- Whether a text has the form of a union: words with `|` between them and blanks around. -/
def isUnion (s : List Char) : Bool :=
  (Text.splitOn '|' s).all fun piece => Text.isWord (Text.trim piece)

/-- The warning about a directive that has no use. -/
def ignoredWarning (d : Designation) (line : Nat) (text : List Char) : Diagnostic :=
  .warning s!"Ignoring '-- return:' directive for designation type '{d.keyword}'"
    (.onLine (line - 1) 0 text.length)

/-- The warning about a directive that is missing. -/
def assumedWarning (d : Designation) : Diagnostic :=
  .warning s!"No '-- return:' directive for designation type '{d.keyword}', assuming 'mixed'" .none

/-- The union that the arguments of a directive on a line give. -/
def ofArguments (line : Nat) (arguments : List Char) : Except ReturnTypeFault ReturnType :=
  let union := String.ofList (Text.trim arguments)
  if isUnion arguments then
    match parse union with
    | .ok r => .ok r
    | .error e => .error (.unknown e)
  else
    .error (.malformed line union)

/-- The return type of a source with a designation, and the warnings. -/
def ofSource (s : Source) (d : Designation) :
    Except CompileError (Option ReturnType × List Diagnostic) :=
  match Directive.find directiveName s.header with
  | _ :: (second, _) :: _ => .error (.directive second .secondReturn)
  | [] =>
    if d.returnsScalar then .ok (some mixed, [assumedWarning d]) else .ok (none, [])
  | [(line, arguments)] =>
    if d.returnsScalar then
      match ofArguments line arguments with
      | .ok r => .ok (some r, [])
      | .error fault => .error (.returnType fault)
    else
      .ok (none, [ignoredWarning d line (s.header[line - 1]?.getD [])])

/-- Whether a type can be a member of a union with several members. -/
def isCombinable : ScalarType → Bool
  | .int | .float | .string | .null => true
  | .mixed | .bool => false

/-- Checks a return type against the rules of a designation. -/
def check (d : Designation) (r : ReturnType) : Except ReturnTypeFault Unit :=
  if !d.returnsScalar || r.isExactly .mixed || r.isExactly .bool then .ok ()
  else if !r.members.all isCombinable then .error (.forbidden r)
  else if d = .singleton0 ∧ !r.contains .null then .error (.withoutNull r)
  else .ok ()

end RoutineLoader.ReturnType
