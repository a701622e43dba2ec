/-!
# Words at the front of a text

Keywords, keys and options are recognized by the letters a text begins with, and what counts then is
the text after them.
-/

namespace AgentScript.Text

/-- What follows the given letters, if the text begins with them. -/
def after? : List Char → List Char → Option (List Char)
  | [], cs => some cs
  | _ :: _, [] => none
  | l :: ls, c :: cs => if l = c then after? ls cs else none

theorem after?_eq_some_iff {ls cs rest : List Char} :
    after? ls cs = some rest ↔ cs = ls ++ rest := by
  induction ls generalizing cs with
  | nil => simp [after?]
  | cons l ls ih =>
    cases cs with
    | nil => simp [after?]
    | cons c cs =>
      by_cases h : l = c
      · simp [after?, h, ih]
      · simp [after?, h, Ne.symm h]

theorem after?_append (ls rest : List Char) : after? ls (ls ++ rest) = some rest :=
  after?_eq_some_iff.2 rfl

end AgentScript.Text
