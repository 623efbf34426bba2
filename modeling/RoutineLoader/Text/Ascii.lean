/-!
# ASCII letters and digits

Catalog names, session settings and SQL mode flags are compared up to the case of ASCII letters;
every other character has to be the same. `sameIgnoringCase` is an equivalence relation
(`sameIgnoringCase_refl`, `sameIgnoringCase_symm`, `sameIgnoringCase_trans`).

A digit has a value up to the base sixteen, and digits stand for a number. The lower case digits
read back as what they are printed for (`digitValue?_hexDigit`).
-/

namespace RoutineLoader.Text

/-! ## Case -/

/-- The text with its ASCII letters in lower case. -/
def lowerAscii (s : String) : String :=
  String.ofList (s.toList.map Char.toLower)

/-- The text with its ASCII letters in upper case. -/
def upperAscii (s : String) : String :=
  String.ofList (s.toList.map Char.toUpper)

/-- Whether two texts differ at most in the case of ASCII letters. -/
def sameIgnoringCase (s t : String) : Bool :=
  lowerAscii s == lowerAscii t

theorem sameIgnoringCase_refl (s : String) : sameIgnoringCase s s := by
  simp [sameIgnoringCase]

theorem sameIgnoringCase_symm {s t : String} (h : sameIgnoringCase s t) :
    sameIgnoringCase t s := by
  simp_all [sameIgnoringCase]

theorem sameIgnoringCase_trans {s t u : String} (h : sameIgnoringCase s t)
    (h' : sameIgnoringCase t u) : sameIgnoringCase s u := by
  simp_all [sameIgnoringCase]

/-! ## Digits -/

/-- The value of a digit to the base sixteen, in either case. -/
def digitValue? (c : Char) : Option Nat :=
  if '0' ≤ c ∧ c ≤ '9' then some (c.toNat - '0'.toNat)
  else if 'a' ≤ c ∧ c ≤ 'f' then some (c.toNat - 'a'.toNat + 10)
  else if 'A' ≤ c ∧ c ≤ 'F' then some (c.toNat - 'A'.toNat + 10)
  else none

/-- The lower case digit of a value below sixteen. -/
def hexDigit (n : Nat) : Char :=
  if n < 10 then Char.ofNat ('0'.toNat + n) else Char.ofNat ('a'.toNat + (n - 10))

/-- The number that digits to a base stand for. -/
def ofDigits (base : Nat) (digits : List Char) : Nat :=
  digits.foldl (fun n c => n * base + (digitValue? c).getD 0) 0

theorem digitValue?_hexDigit : ∀ n < 16, digitValue? (hexDigit n) = some n := by
  decide

end RoutineLoader.Text
