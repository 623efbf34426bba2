import RoutineLoader.Decimal

/-!
# JSON values

A value as a text gives it: members in their order, repeated names included. The constructor
`broken` stands where a text stops being JSON, so that a reader of values can go through the parts
before that place and find their faults first; a value without it is whole (`Json.isWhole`). A
string is absent if its escapes stand for no characters.
-/

namespace RoutineLoader

/-- A number: an integer, or a decimal with the digits before and behind its point and the exponent
behind them. -/
inductive Json.Number
  | integer (negative : Bool) (magnitude : Nat)
  | decimal (negative : Bool) (whole fraction : List Char) (exponent : Int)
  deriving DecidableEq

/-- A JSON value, as far as it could be read. -/
inductive Json
  | null
  | bool (value : Bool)
  | number (value : Json.Number)
  | string (value : Option String)
  | array (items : List Json)
  | object (members : List (Option String × Json))
  | broken
  deriving Inhabited

namespace Json

/-- Whether the number, read in one word, is a finite double float. -/
def Number.isFinite : Number → Bool
  | .integer _ magnitude => (Decimal.Scaled.ofDigits (toString magnitude).toList [] 0).isFinite
  | .decimal _ whole fraction exponent =>
    (Decimal.Scaled.ofDigits whole fraction exponent).isFinite

mutual

/-- Whether a value was read to its end. -/
def isWhole : Json → Bool
  | .array items => allWhole items
  | .object members => allMembersWhole members
  | .broken => false
  | _ => true

/-- Whether all values were read to their end. -/
def allWhole : List Json → Bool
  | [] => true
  | item :: items => item.isWhole && allWhole items

/-- Whether the values of all members were read to their end. -/
def allMembersWhole : List (Option String × Json) → Bool
  | [] => true
  | (_, value) :: members => value.isWhole && allMembersWhole members

end

mutual

/-- Whether a value is whole, all its strings are texts, its numbers are finite, and at most
`depth` arrays and objects stand around any of its parts. -/
def isPlain (depth : Nat) : Json → Bool
  | .array items => depth != 0 && allPlain (depth - 1) items
  | .object members => depth != 0 && allMembersPlain (depth - 1) members
  | .broken => false
  | .string value => value.isSome
  | .number value => value.isFinite
  | _ => true

/-- `isPlain` of all values. -/
def allPlain (depth : Nat) : List Json → Bool
  | [] => true
  | item :: items => item.isPlain depth && allPlain depth items

/-- `isPlain` of the values of all members, and texts as their names. -/
def allMembersPlain (depth : Nat) : List (Option String × Json) → Bool
  | [] => true
  | (name, value) :: members =>
    name.isSome && value.isPlain depth && allMembersPlain depth members

end

end Json

end RoutineLoader
