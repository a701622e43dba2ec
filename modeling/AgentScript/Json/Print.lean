import AgentScript.Decimal.Shortest
import AgentScript.Json.Value

/-!
# Writing JSON

A value is written either on one line without any space, or over several lines: every item and
every member on a line of its own, indented by two spaces for each array or object around it, a
space after the colon, and nothing between the brackets of what is empty.

Of the characters of a string, quotes, the reverse solidus and the control characters below the
space are escaped, the usual ones by a letter and the others by `\u00xx`.  A double that is not
finite is written as `null`.
-/

namespace AgentScript.Json

/-- A digit of a hexadecimal number, in lower case. -/
def hexDigit (n : Nat) : Char := Nat.digitChar n

/-- A character within a string. -/
def printChar (c : Char) : List Char :=
  if c = '"' then ['\\', '"']
  else if c = '\\' then ['\\', '\\']
  else if c = '\x08' then ['\\', 'b']
  else if c = '\t' then ['\\', 't']
  else if c = '\n' then ['\\', 'n']
  else if c = '\x0c' then ['\\', 'f']
  else if c = '\r' then ['\\', 'r']
  else if c.toNat < 0x20 then ['\\', 'u', '0', '0', hexDigit (c.toNat / 16), hexDigit (c.toNat % 16)]
  else [c]

/-- A string with its quotes. -/
def printString (s : String) : List Char := '"' :: s.toList.flatMap printChar ++ ['"']

/-- A number. -/
def printNumber : Number → List Char
  | .integer n => (toString n).toList
  | .real x => ((Decimal.render x).getD "null").toList

def printBool : Bool → List Char
  | true => ['t', 'r', 'u', 'e']
  | false => ['f', 'a', 'l', 's', 'e']

/-- A new line with the given number of levels of indentation. -/
def newLine (level : Nat) : List Char := '\n' :: List.replicate (2 * level) ' '

namespace Value

mutual

/-- The value over several lines, when so many arrays and objects are around it. -/
def printPretty (level : Nat) : Value → List Char
  | .null => ['n', 'u', 'l', 'l']
  | .bool b => printBool b
  | .number n => printNumber n
  | .string s => printString s
  | .array [] => ['[', ']']
  | .array (v :: vs) =>
    '[' :: newLine (level + 1) ++ printPretty (level + 1) v ++ prettyItems (level + 1) vs ++
      newLine level ++ [']']
  | .object [] => ['{', '}']
  | .object ((k, v) :: ms) =>
    '{' :: newLine (level + 1) ++ printString k ++ [':', ' '] ++ printPretty (level + 1) v ++
      prettyMembers (level + 1) ms ++ newLine level ++ ['}']

def prettyItems (level : Nat) : List Value → List Char
  | [] => []
  | v :: vs => ',' :: newLine level ++ printPretty level v ++ prettyItems level vs

def prettyMembers (level : Nat) : List (String × Value) → List Char
  | [] => []
  | (k, v) :: ms =>
    ',' :: newLine level ++ printString k ++ [':', ' '] ++ printPretty level v ++
      prettyMembers level ms

end

mutual

/-- The value on one line. -/
def printCompact : Value → List Char
  | .null => ['n', 'u', 'l', 'l']
  | .bool b => printBool b
  | .number n => printNumber n
  | .string s => printString s
  | .array [] => ['[', ']']
  | .array (v :: vs) => '[' :: printCompact v ++ compactItems vs ++ [']']
  | .object [] => ['{', '}']
  | .object ((k, v) :: ms) =>
    '{' :: printString k ++ ':' :: printCompact v ++ compactMembers ms ++ ['}']

def compactItems : List Value → List Char
  | [] => []
  | v :: vs => ',' :: printCompact v ++ compactItems vs

def compactMembers : List (String × Value) → List Char
  | [] => []
  | (k, v) :: ms => ',' :: printString k ++ ':' :: printCompact v ++ compactMembers ms

end

/-- The value over several lines. -/
def pretty (v : Value) : String := String.ofList (printPretty 0 v)

/-- The value on one line. -/
def compact (v : Value) : String := String.ofList (printCompact v)

end Value

end AgentScript.Json
