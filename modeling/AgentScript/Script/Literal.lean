/-!
# Literals and comments within a line

Braces give a script its structure, except where they stand in a quoted literal or in a comment.
Reading a line from left to right, a character is in one of four situations:

* in *code*;
* in a literal that a quote `"`, `'` or a grave accent opened, and that only the same character
  closes;
* right after a reverse solidus in such a literal, where the character that follows never closes it;
* in a *comment*, which two solidi in code begin and which runs to the end of the line.

A literal does not go on to the next line: every line begins in code.

`mask` blanks what a literal holds and drops a comment.  A character of `k` bytes becomes `k`
spaces, so that a place in the masked line, counted in bytes, is the same place in the line.
-/

namespace AgentScript.Script

/-- The situation of a character within its line. -/
inductive Literal where
  | code
  | quoted (mark : Char)
  | escaped (mark : Char)
  | comment
  deriving DecidableEq, Repr, Inhabited

/-- The characters that open a literal. -/
def isMark (c : Char) : Bool := c == '"' || c == '\'' || c.toNat == 0x60

/-- As many spaces as the character has bytes. -/
def blankFor (c : Char) : List Char := List.replicate c.utf8Size ' '

/-- The line with the contents of its literals blanked and its comment dropped, read from the
given situation on. -/
def mask : Literal → List Char → List Char
  | _, [] => []
  | .comment, _ :: _ => []
  | .code, '/' :: '/' :: _ => []
  | .code, c :: cs => c :: mask (if isMark c then .quoted c else .code) cs
  | .quoted q, c :: cs =>
    if c = '\\' then blankFor c ++ mask (.escaped q) cs
    else if c = q then c :: mask .code cs
    else blankFor c ++ mask (.quoted q) cs
  | .escaped q, c :: cs => blankFor c ++ mask (.quoted q) cs

/-- The situation after the whole of a text that is read from the given situation on. -/
def situationAfter : Literal → List Char → Literal
  | s, [] => s
  | .comment, _ :: _ => .comment
  | .code, '/' :: '/' :: _ => .comment
  | .code, c :: cs => situationAfter (if isMark c then .quoted c else .code) cs
  | .quoted q, c :: cs =>
    if c = '\\' then situationAfter (.escaped q) cs
    else if c = q then situationAfter .code cs
    else situationAfter (.quoted q) cs
  | .escaped q, _ :: cs => situationAfter (.quoted q) cs

/-- The opening braces less the closing ones. -/
def braceSum : List Char → Int
  | [] => 0
  | c :: cs => (if c = '{' then 1 else if c = '}' then -1 else 0) + braceSum cs

/-- By how much a line changes the number of open braces. -/
def netBraces (line : List Char) : Int := braceSum (mask .code line)

/-- Whether a line closes a brace and opens none. -/
def onlyCloses (line : List Char) : Bool :=
  let masked := mask .code line
  masked.contains '}' && !masked.contains '{'

@[simp] theorem mask_nil (s : Literal) : mask s [] = [] := by cases s <;> rfl

@[simp] theorem mask_comment (cs : List Char) : mask .comment cs = [] := by cases cs <;> rfl

theorem mask_escaped_cons (q c : Char) (cs : List Char) :
    mask (.escaped q) (c :: cs) = blankFor c ++ mask (.quoted q) cs := by rw [mask]

theorem situationAfter_escaped_cons (q c : Char) (cs : List Char) :
    situationAfter (.escaped q) (c :: cs) = situationAfter (.quoted q) cs := by rw [situationAfter]

end AgentScript.Script
