/-!
# Blank characters

A character is blank when Unicode gives it the property `White_Space`: twenty-five characters, of
which six lie in ASCII.  Headers, fields and quoted clauses are read up to blanks, and two scripts
are compared after blanks at either end of a line are dropped, so the one class serves both the
reader and the comparison.

The zero-width characters (`U+200B` to `U+200D`, `U+FEFF`) are not blank.
-/

namespace AgentScript.Text

/-- The characters with the property `White_Space`. -/
def isBlank (c : Char) : Bool :=
  let n := c.toNat
  (9 ≤ n && n ≤ 13) || n == 0x20 || n == 0x85 || n == 0xA0 || n == 0x1680 ||
    (0x2000 ≤ n && n ≤ 0x200A) || n == 0x2028 || n == 0x2029 || n == 0x202F || n == 0x205F ||
    n == 0x3000

/-- What is left after the blanks at the front. -/
def dropBlanks (cs : List Char) : List Char := cs.dropWhile isBlank

/-- What is left after the blanks at the end. -/
def dropTrailingBlanks (cs : List Char) : List Char := (dropBlanks cs.reverse).reverse

/-- The text without the blanks at either end. -/
def trim (cs : List Char) : List Char := dropTrailingBlanks (dropBlanks cs)

@[simp] theorem dropBlanks_nil : dropBlanks [] = [] := rfl

theorem dropBlanks_of_not_isBlank {c : Char} (h : isBlank c = false) (cs : List Char) :
    dropBlanks (c :: cs) = c :: cs := by
  simp [dropBlanks, h]

end AgentScript.Text
