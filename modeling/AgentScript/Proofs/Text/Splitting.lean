import AgentScript.Text.Blank
import AgentScript.Text.Lines
import AgentScript.Text.Word
import Mathlib.Data.List.TakeWhile
import Mathlib.Tactic.Common

/-!
# Taking a text apart where it was put together

A reader of names, blanks or lines stops at the first character outside its class.  What was put
together from a run of the class and something that begins outside it therefore comes apart at the
seam.  The classes themselves are far apart: no word character is blank.
-/

namespace AgentScript.Text

/-- What all characters of a text satisfy is decided along the text, not over every character there
is. -/
instance (priority := 2000) decidableForallMem {p : Char → Prop} [DecidablePred p]
    (cs : List Char) : Decidable (∀ c ∈ cs, p c) :=
  List.decidableBAll p cs

/-! ## Blanks -/

lemma isBlank_eq_false_of_isWord {c : Char} (h : isWord c = true) : isBlank c = false := by
  by_contra hblank
  have hcases : c.toNat ∈ List.range' 9 5 ++ [0x20, 0x85, 0xA0, 0x1680] ++ List.range' 0x2000 11 ++
      [0x2028, 0x2029, 0x202F, 0x205F, 0x3000] := by
    simp only [isBlank, Bool.not_eq_false, Bool.or_eq_true, Bool.and_eq_true, decide_eq_true_eq,
      beq_iff_eq] at hblank
    simp only [List.mem_append, List.mem_range'_1, List.mem_cons, List.not_mem_nil, or_false]
    omega
  have hclass : ∀ n ∈ List.range' 9 5 ++ [0x20, 0x85, 0xA0, 0x1680] ++ List.range' 0x2000 11 ++
      [0x2028, 0x2029, 0x202F, 0x205F, 0x3000], isWord (Char.ofNat n) = false := by
    decide +kernel
  have hword := hclass c.toNat hcases
  rw [Char.ofNat_toNat, h] at hword
  cases hword

lemma dropBlanks_append {blanks : List Char} (h : ∀ c ∈ blanks, isBlank c = true)
    (cs : List Char) : dropBlanks (blanks ++ cs) = dropBlanks cs :=
  List.dropWhile_append_of_pos h

lemma dropBlanks_eq_self {cs : List Char} (h : ∀ c, cs.head? = some c → isBlank c = false) :
    dropBlanks cs = cs := by
  cases cs with
  | nil => rfl
  | cons c rest => exact dropBlanks_of_not_isBlank (h c rfl) rest

lemma dropBlanks_eq_nil {blanks : List Char} (h : ∀ c ∈ blanks, isBlank c = true) :
    dropBlanks blanks = [] := by
  have hempty := dropBlanks_append h []
  rwa [List.append_nil] at hempty

lemma exists_dropBlanks (cs : List Char) :
    ∃ blanks, (∀ b ∈ blanks, isBlank b = true) ∧ cs = blanks ++ dropBlanks cs :=
  ⟨cs.takeWhile isBlank, fun _ hb => List.mem_takeWhile_imp hb,
    List.takeWhile_append_dropWhile.symm⟩

lemma head?_dropBlanks {cs : List Char} {c : Char} (h : (dropBlanks cs).head? = some c) :
    isBlank c = false := by
  have hstop := List.head?_dropWhile_not isBlank cs
  rw [dropBlanks] at h
  rw [h] at hstop
  simpa using hstop

lemma dropBlanks_dropBlanks (cs : List Char) : dropBlanks (dropBlanks cs) = dropBlanks cs :=
  dropBlanks_eq_self fun _ hc => head?_dropBlanks hc

lemma exists_dropTrailingBlanks (cs : List Char) :
    ∃ blanks, (∀ b ∈ blanks, isBlank b = true) ∧ cs = dropTrailingBlanks cs ++ blanks := by
  obtain ⟨blanks, hblanks, heq⟩ := exists_dropBlanks cs.reverse
  refine ⟨blanks.reverse, fun b hb => hblanks b (List.mem_reverse.1 hb), ?_⟩
  rw [dropTrailingBlanks, ← List.reverse_append, ← heq, List.reverse_reverse]

/-- Trimming takes blanks off either end. -/
lemma exists_trim (cs : List Char) :
    ∃ front back, (∀ b ∈ front, isBlank b = true) ∧ (∀ b ∈ back, isBlank b = true) ∧
      cs = front ++ (trim cs ++ back) := by
  obtain ⟨front, hfront, heq⟩ := exists_dropBlanks cs
  obtain ⟨back, hback, heq'⟩ := exists_dropTrailingBlanks (dropBlanks cs)
  refine ⟨front, back, hfront, hback, ?_⟩
  rw [trim, ← heq', ← heq]

lemma mem_of_mem_trim {cs : List Char} {c : Char} (h : c ∈ trim cs) : c ∈ cs := by
  obtain ⟨front, back, -, -, heq⟩ := exists_trim cs
  rw [heq]
  exact List.mem_append_right _ (List.mem_append_left _ h)

lemma head?_trim {cs : List Char} {c : Char} (h : (trim cs).head? = some c) :
    isBlank c = false := by
  obtain ⟨back, -, heq⟩ := exists_dropTrailingBlanks (dropBlanks cs)
  have hfirst : (dropBlanks cs).head? = some c := by
    rw [trim] at h
    rw [heq, List.head?_append, h, Option.some_or]
  exact head?_dropBlanks hfirst

lemma getLast?_trim {cs : List Char} {c : Char} (h : (trim cs).getLast? = some c) :
    isBlank c = false := by
  rw [trim, dropTrailingBlanks, List.getLast?_reverse] at h
  exact head?_dropBlanks h

lemma trim_eq_self {cs : List Char} (hhead : ∀ c, cs.head? = some c → isBlank c = false)
    (hlast : ∀ c, cs.getLast? = some c → isBlank c = false) : trim cs = cs := by
  have hreverse : dropBlanks cs.reverse = cs.reverse := by
    refine dropBlanks_eq_self fun c hc => hlast c ?_
    rw [List.head?_reverse] at hc
    exact hc
  rw [trim, dropBlanks_eq_self hhead, dropTrailingBlanks, hreverse, List.reverse_reverse]

@[simp] lemma trim_trim (cs : List Char) : trim (trim cs) = trim cs :=
  trim_eq_self (fun _ hc => head?_trim hc) (fun _ hc => getLast?_trim hc)

/-! ## Names -/

lemma isName_iff {cs : List Char} : isName cs = true ↔ cs ≠ [] ∧ ∀ c ∈ cs, isWord c = true := by
  simp [isName]

lemma takeWhile_append_stop {p : Char → Bool} {run rest : List Char} (hrun : ∀ c ∈ run, p c = true)
    (hrest : ∀ c, rest.head? = some c → p c = false) :
    (run ++ rest).takeWhile p = run ∧ (run ++ rest).dropWhile p = rest := by
  rw [List.takeWhile_append_of_pos hrun, List.dropWhile_append_of_pos hrun]
  cases rest with
  | nil => simp
  | cons c rest => simp [hrest c rfl]

/-! ## Lines -/

/-- A line as it stands between two line breaks: without a line feed, and without a carriage return
at its end, which would go to the line break. -/
def IsLine (l : List Char) : Prop := '\n' ∉ l ∧ l.getLast? ≠ some '\r'

lemma lines_append_newline {l : List Char} (h : IsLine l) (rest : List Char) :
    lines (l ++ '\n' :: rest) = l :: lines rest := by
  induction l with
  | nil => rw [List.nil_append, lines]
  | cons c cs ih =>
    obtain ⟨hnew, hret⟩ := h
    rw [List.mem_cons, not_or] at hnew
    have hcs : IsLine cs := by
      refine ⟨hnew.2, fun hlast => hret ?_⟩
      rw [List.getLast?_cons, hlast]
      rfl
    rw [List.cons_append, lines, ih hcs]
    · intro heq
      exact hnew.1 heq.symm
    · -- A carriage return before the seam is followed by another character of the line.
      rintro tail rfl htail
      cases cs with
      | nil => exact hret rfl
      | cons d ds =>
        rw [List.cons_append, List.cons.injEq] at htail
        exact hnew.2 (htail.1 ▸ List.mem_cons_self)

/-- A character that breaks no line stands in front of the first line. -/
lemma lines_cons {c : Char} {cs : List Char} (hnew : c ≠ '\n')
    (hret : c = '\r' → cs.head? ≠ some '\n') :
    lines (c :: cs) = (c :: (lines cs).headD []) :: (lines cs).tail := by
  rw [lines]
  · cases lines cs <;> rfl
  · exact hnew
  · rintro rest rfl rfl
    exact hret rfl rfl

/-- A character that breaks no line with what stands behind it breaks none when the text goes on. -/
lemma lines_cons_append {c : Char} {rest : List Char} (hne : rest ≠ []) (hnew : c ≠ '\n')
    (hret : ∀ others, c = '\r' → rest = '\n' :: others → False) (y : List Char) :
    lines (c :: (rest ++ y)) =
      (c :: (lines (rest ++ y)).headD []) :: (lines (rest ++ y)).tail := by
  apply lines_cons hnew
  obtain ⟨d, ds, rfl⟩ := List.exists_cons_of_ne_nil hne
  rintro rfl ⟨⟩
  exact hret ds rfl rfl

/-- Behind a line break, lines begin anew. -/
lemma lines_append {x : List Char} (h : x.getLast? = some '\n') (y : List Char) :
    lines (x ++ y) = lines x ++ lines y := by
  induction x using lines.induct with
  | case1 => cases h
  | case2 rest ih =>
    rw [List.cons_append, lines, lines, List.cons_append]
    cases rest with
    | nil => rfl
    | cons d ds => rw [ih (by rwa [List.getLast?_cons_cons] at h)]
  | case3 rest ih =>
    rw [List.cons_append, List.cons_append, lines, lines, List.cons_append]
    cases rest with
    | nil => rfl
    | cons d ds =>
      rw [List.getLast?_cons_cons, List.getLast?_cons_cons] at h
      rw [ih h]
  | case4 c rest hnew hret hlines ih =>
    cases rest with
    | nil =>
      cases h
      exact absurd rfl hnew
    | cons d ds => exact absurd hlines (lines_ne_nil (List.cons_ne_nil d ds))
  | case5 c rest hnew hret line others hlines ih =>
    cases rest with
    | nil => cases hlines
    | cons d ds =>
      have hcons := lines_cons_append (List.cons_ne_nil d ds) (fun h => hnew h) hret
      have hfront := hcons []
      rw [List.append_nil] at hfront
      rw [List.getLast?_cons_cons] at h
      rw [List.cons_append, hcons, hfront, ih h, hlines]
      rfl

/-- Lines come back from the text they were written to. -/
lemma lines_unlines {ls : List (List Char)} (h : ∀ l ∈ ls, IsLine l) : lines (unlines ls) = ls := by
  induction ls with
  | nil => rfl
  | cons l ls ih =>
    rw [unlines_cons, lines_append_newline (h l List.mem_cons_self),
      ih fun l hl => h l (List.mem_cons_of_mem _ hl)]

lemma newline_not_mem_of_mem_lines {cs l : List Char} (h : l ∈ lines cs) : '\n' ∉ l := by
  induction cs using lines.induct generalizing l with
  | case1 => cases h
  | case2 rest ih =>
    rcases List.mem_cons.1 h with rfl | h
    · exact List.not_mem_nil
    · exact ih h
  | case3 rest ih =>
    rcases List.mem_cons.1 h with rfl | h
    · exact List.not_mem_nil
    · exact ih h
  | case4 c rest hnew hret hlines ih =>
    rw [lines, hlines, List.mem_singleton] at h
    · rw [h, List.mem_singleton]
      exact fun heq => hnew heq.symm
    · exact hnew
    · exact hret
  | case5 c rest hnew hret line others hlines ih =>
    rw [lines, hlines] at h
    · rcases List.mem_cons.1 h with rfl | h
      · rw [List.mem_cons, not_or]
        exact ⟨fun heq => hnew heq.symm, ih (hlines ▸ List.mem_cons_self)⟩
      · exact ih (hlines ▸ List.mem_cons_of_mem _ h)
    · exact hnew
    · exact hret

end AgentScript.Text
