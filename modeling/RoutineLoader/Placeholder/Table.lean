import RoutineLoader.SortedMap
import RoutineLoader.Text.Uppercase

/-!
# The placeholder table

The values that tokens stand for. Tokens with the same upper case are one entry, so a look-up
depends on a token only through its upper case. A value is either put in whatever was there
(`insert`), or only where nothing is (`insertIfAbsent`); `get?_insert` and `get?_insertIfAbsent`
say what that does to look-ups.
-/

namespace RoutineLoader.Placeholder

/-- Values by the upper case of their tokens. -/
structure Table where
  values : SortedMap String
  deriving DecidableEq, Inhabited

namespace Table

/-- The table without entries. -/
def empty : Table :=
  ⟨.empty⟩

/-- The value of a token. -/
def get? (t : Table) (token : String) : Option String :=
  t.values.get? (Text.uppercase token)

/-- The table with a value for a token, in place of an earlier one. -/
def insert (t : Table) (token value : String) : Table :=
  ⟨t.values.insert (Text.uppercase token) value⟩

/-- The table with a value for a token, unless the token has one. -/
def insertIfAbsent (t : Table) (token value : String) : Table :=
  match t.get? token with
  | some _ => t
  | none => t.insert token value

/-- The table of some tokens and values; of two values for one token the later counts. -/
def ofList (pairs : List (String × String)) : Table :=
  pairs.foldl (fun t pair => t.insert pair.1 pair.2) empty

/-- The table with the values of those tokens that have none; of two values for one token the
earlier counts. -/
def addMissing (t : Table) (pairs : List (String × String)) : Table :=
  pairs.foldl (fun t pair => t.insertIfAbsent pair.1 pair.2) t

@[simp] theorem get?_empty (token : String) : empty.get? token = none :=
  rfl

@[simp] theorem get?_insert (t : Table) (token value token' : String) :
    (t.insert token value).get? token' =
      if Text.uppercase token = Text.uppercase token' then some value else t.get? token' := by
  simp [insert, get?]

@[simp] theorem get?_insertIfAbsent (t : Table) (token value token' : String) :
    (t.insertIfAbsent token value).get? token' =
      if Text.uppercase token = Text.uppercase token' then some ((t.get? token').getD value)
      else t.get? token' := by
  unfold insertIfAbsent
  split
  · rename_i v h
    split
    · rename_i heq
      have : t.get? token' = some v := by simpa [get?, ← heq] using h
      simp [this]
    · rfl
  · rename_i h
    rw [get?_insert]
    split
    · rename_i heq
      have : t.get? token' = none := by simpa [get?, ← heq] using h
      simp [this]
    · rfl

end Table

end RoutineLoader.Placeholder
