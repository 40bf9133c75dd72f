/- Decimal numerals: ASCII digits, any number of leading zeros. -/
namespace TypedMessage.Text

/-- The number a list of decimal digits spells. -/
def decimalValue (cs : List Char) : Nat := cs.foldl (fun n c => n * 10 + (c.toNat - 48)) 0

/-- One or more ASCII digits and nothing else. -/
def isDecimal (cs : List Char) : Bool := !cs.isEmpty && cs.all Char.isDigit

/-- Reads a decimal numeral. -/
def readDecimal? (cs : List Char) : Option Nat :=
  if isDecimal cs then some (decimalValue cs) else none

theorem readDecimal?_eq_some_iff {cs : List Char} {n : Nat} :
    readDecimal? cs = some n ↔ (cs ≠ [] ∧ ∀ c ∈ cs, c.isDigit) ∧ decimalValue cs = n := by
  simp [readDecimal?, isDecimal]

end TypedMessage.Text
