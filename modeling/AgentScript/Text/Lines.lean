/-!
# Lines of a text

A line ends at a line feed; one carriage return right before the line feed belongs to the line
break and not to the line.  A carriage return anywhere else is an ordinary character, also at the
very end of a text that lacks its last line feed.  The empty text has no line, and a text that ends
in a line break has no empty line after it.
-/

namespace AgentScript.Text

/-- The lines of a text, without their line breaks. -/
def lines : List Char → List (List Char)
  | [] => []
  | '\n' :: rest => [] :: lines rest
  | '\r' :: '\n' :: rest => [] :: lines rest
  | c :: rest =>
    match lines rest with
    | [] => [[c]]
    | line :: others => (c :: line) :: others

/-- The text whose lines are the given ones, each ended by a line feed. -/
def unlines (ls : List (List Char)) : List Char := ls.flatMap (· ++ ['\n'])

@[simp] theorem lines_nil : lines [] = [] := rfl

theorem lines_ne_nil {cs : List Char} (h : cs ≠ []) : lines cs ≠ [] := by
  cases cs using lines.induct with
  | case1 => exact absurd rfl h
  | case2 => simp [lines]
  | case3 => simp [lines]
  | case4 c rest hnew hret hlines _ =>
    rw [lines, hlines]
    · exact List.cons_ne_nil _ _
    · exact hnew
    · exact hret
  | case5 c rest hnew hret line others hlines _ =>
    rw [lines, hlines]
    · exact List.cons_ne_nil _ _
    · exact hnew
    · exact hret

@[simp] theorem unlines_nil : unlines [] = [] := rfl

@[simp] theorem unlines_cons (l : List Char) (ls : List (List Char)) :
    unlines (l :: ls) = l ++ '\n' :: unlines ls := by
  simp [unlines]

end AgentScript.Text
