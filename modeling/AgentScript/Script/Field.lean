import AgentScript.Outline
import AgentScript.Text.Blank
import AgentScript.Text.Word

/-!
# Types and field lists

A *type* is written as one or more runs of word characters, brackets `[ ] < >` and full stops, the
runs separated by commas, each with blanks after it at will: `Map<string, List<number>>`.  Nothing
is checked beyond that, neither that brackets match nor that names mean anything.

State blocks and types hold *fields*, `name: type`, those of a state block also `name?: type`.
Fields are separated by commas and semicolons that stand outside brackets, and by line breaks.  What
follows the type within its piece is dropped, and so is a piece that does not begin with a field.
-/

namespace AgentScript.Script

open AgentScript.Text

/-- The characters of a type apart from commas and blanks. -/
def isTypeChar (c : Char) : Bool :=
  isWord c || c == '[' || c == ']' || c == '<' || c == '>' || c == '.'

mutual

/-- What a type goes on with after one of its characters, and the rest. -/
def readTypeTail : List Char → List Char × List Char
  | [] => ([], [])
  | c :: cs =>
    if isTypeChar c then
      let (tail, rest) := readTypeTail cs
      (c :: tail, rest)
    else if c = ',' then
      match readAfterComma cs with
      | some (tail, rest) => (c :: tail, rest)
      | none => ([], c :: cs)
    else ([], c :: cs)

/-- What a type goes on with after a comma: blanks at will, then one of its characters; nothing
if the text goes on in another way. -/
def readAfterComma : List Char → Option (List Char × List Char)
  | [] => none
  | c :: cs =>
    if isTypeChar c then
      let (tail, rest) := readTypeTail cs
      some (c :: tail, rest)
    else if isBlank c then
      match readAfterComma cs with
      | some (tail, rest) => some (c :: tail, rest)
      | none => none
    else none

end

/-- The longest type at the front of a text, and the rest. -/
def readType : List Char → Option (List Char × List Char)
  | [] => none
  | c :: cs =>
    if isTypeChar c then
      let (tail, rest) := readTypeTail cs
      some (c :: tail, rest)
    else none

/-- Whether a text is a type and nothing more. -/
def isType (cs : List Char) : Bool :=
  match readType cs with
  | some (_, []) => true
  | _ => false

/-- The name at the front of a text, and the rest. -/
def readName (cs : List Char) : Option (List Char × List Char) :=
  match cs.takeWhile isWord with
  | [] => none
  | name => some (name, cs.dropWhile isWord)

/-- The rest of a text after the given character, if the text begins with it. -/
def expect (c : Char) : List Char → Option (List Char)
  | [] => none
  | d :: rest => if d = c then some rest else none

/-- A field at the front of a piece. -/
def readStateField (piece : List Char) : Option StateField := do
  let (name, rest) ← readName (dropBlanks piece)
  let optional := (expect '?' rest).isSome
  let rest ← expect ':' (dropBlanks ((expect '?' rest).getD rest))
  let (type, _) ← readType (dropBlanks rest)
  return ⟨String.ofList name, String.ofList type, optional⟩

/-- A field of a type at the front of a piece; a question mark makes it none. -/
def readTypeField (piece : List Char) : Option TypeField := do
  let (name, rest) ← readName (dropBlanks piece)
  let rest ← expect ':' (dropBlanks rest)
  let (type, _) ← readType (dropBlanks rest)
  return ⟨String.ofList name, String.ofList type⟩

/-- The bracket depth after a character. -/
def depthAfter (depth : Int) (c : Char) : Int :=
  if c = '<' ∨ c = '[' ∨ c = '(' then depth + 1
  else if c = '>' ∨ c = ']' ∨ c = ')' then depth - 1
  else depth

/-- Whether a character separates two fields at the given bracket depth.  More brackets closed than
opened count as none open. -/
def separates (depth : Int) (c : Char) : Bool := (c == ',' || c == ';') && depth ≤ 0

/-- The pieces of a field list that begins at the given bracket depth.  There is always at least
one. -/
def piecesFrom (depth : Int) : List Char → List (List Char)
  | [] => [[]]
  | c :: cs =>
    if separates depth c then [] :: piecesFrom depth cs
    else
      match piecesFrom (depthAfter depth c) cs with
      | [] => [[c]]
      | piece :: others => (c :: piece) :: others

/-- The pieces of a field list. -/
def pieces (segment : List Char) : List (List Char) := piecesFrom 0 segment

/-- The fields of a state block in one stretch of its body. -/
def stateFields (segment : List Char) : List StateField :=
  (pieces segment).filterMap readStateField

/-- The fields of a type in one stretch of its body. -/
def typeFields (segment : List Char) : List TypeField :=
  (pieces segment).filterMap readTypeField

/-! ## What is left is a suffix

A reader takes characters off the front and leaves the others as they are. -/

theorem expect_eq_some {c : Char} {cs rest : List Char} :
    expect c cs = some rest ↔ cs = c :: rest := by
  cases cs with
  | nil => simp [expect]
  | cons d ds => by_cases h : d = c <;> simp [expect, h]

theorem dropBlanks_suffix (cs : List Char) : dropBlanks cs <:+ cs := List.dropWhile_suffix _

theorem readName_suffix {cs name rest : List Char} (h : readName cs = some (name, rest)) :
    rest <:+ cs := by
  simp only [readName] at h
  split at h
  · simp at h
  · simp only [Option.some.injEq, Prod.mk.injEq] at h
    exact h.2 ▸ List.dropWhile_suffix _

mutual

theorem readTypeTail_suffix (cs : List Char) : (readTypeTail cs).2 <:+ cs := by
  cases cs with
  | nil => simp [readTypeTail]
  | cons c cs =>
    simp only [readTypeTail]
    split
    · exact (readTypeTail_suffix cs).trans (List.suffix_cons c cs)
    · split
      · split
        · rename_i tail rest h
          exact (readAfterComma_suffix cs h).trans (List.suffix_cons c cs)
        · exact List.suffix_refl _
      · exact List.suffix_refl _

theorem readAfterComma_suffix (cs : List Char) {tail rest : List Char}
    (h : readAfterComma cs = some (tail, rest)) : rest <:+ cs := by
  cases cs with
  | nil => simp [readAfterComma] at h
  | cons c cs =>
    simp only [readAfterComma] at h
    split at h
    · simp only [Option.some.injEq, Prod.mk.injEq] at h
      exact h.2 ▸ (readTypeTail_suffix cs).trans (List.suffix_cons c cs)
    · split at h
      · split at h
        · rename_i t r hr
          simp only [Option.some.injEq, Prod.mk.injEq] at h
          exact h.2 ▸ (readAfterComma_suffix cs hr).trans (List.suffix_cons c cs)
        · simp at h
      · simp at h

end

theorem readType_suffix {cs type rest : List Char} (h : readType cs = some (type, rest)) :
    rest <:+ cs := by
  cases cs with
  | nil => simp [readType] at h
  | cons c cs =>
    simp only [readType] at h
    split at h
    · simp only [Option.some.injEq, Prod.mk.injEq] at h
      exact h.2 ▸ (readTypeTail_suffix cs).trans (List.suffix_cons c cs)
    · simp at h

end AgentScript.Script
