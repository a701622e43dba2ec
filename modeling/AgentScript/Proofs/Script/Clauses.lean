import AgentScript.Proofs.Script.Headers
import AgentScript.Proofs.Script.Masking
import AgentScript.Script.ClauseSearch
import Mathlib.Data.List.Infix

/-!
# Quoted clauses in written lines

A clause is looked for at every place of a line, so a written line `key: "value"` might be taken
for a clause with another key.  It is not: a value needs two quotes and something between them, a
written line has two quotes only, and what stands right before the first of them is the key that was
written (`clauseHere_written`).  A line without quotes has no clause at all.
-/

namespace AgentScript.Script

open AgentScript.Text

/-! ## Where a clause is found -/

variable {key : String}

lemma exists_of_clauseText {line value : List Char} (h : clauseText key line = some value) :
    ∃ cs, cs <:+ line ∧ clauseHere key cs = some value := by
  induction line with
  | nil => cases h
  | cons c cs ih =>
    rw [clauseText] at h
    cases hhere : clauseHere key (c :: cs) with
    | some found =>
      rw [hhere] at h
      exact ⟨c :: cs, List.suffix_rfl, hhere.trans h⟩
    | none =>
      rw [hhere] at h
      obtain ⟨rest, hsuffix, hrest⟩ := ih h
      exact ⟨rest, hsuffix.trans (List.suffix_cons c cs), hrest⟩

lemma isSome_clauseText {line cs value : List Char} (hsuffix : cs <:+ line)
    (h : clauseHere key cs = some value) : (clauseText key line).isSome = true := by
  induction line with
  | nil =>
    rw [List.suffix_nil] at hsuffix
    rw [hsuffix, clauseHere, Option.bind_eq_bind, Option.bind_eq_some_iff] at h
    obtain ⟨rest, hafter, -⟩ := h
    have hlength := congrArg List.length (after?_eq_some_iff.1 hafter)
    simp at hlength
  | cons c line ih =>
    rw [clauseText]
    cases hhere : clauseHere key (c :: line) with
    | some found => rfl
    | none =>
      rcases List.suffix_cons_iff.1 hsuffix with rfl | hsuffix
      · rw [hhere] at h
        cases h
      · exact ih hsuffix

/-- A value stands between two quotes and has a first character. -/
lemma exists_of_quotedValue {cs value : List Char} (h : quotedValue cs = some value) :
    ∃ q c tail, cs = q :: c :: tail ∧ isQuote q = true ∧ value = c :: tail.takeWhile (!isQuote ·) := by
  match cs with
  | [] => cases h
  | [_] => cases h
  | q :: c :: tail =>
    rw [quotedValue] at h
    by_cases hquote : isQuote q = true
    · rw [if_pos hquote] at h
      split at h
      next => cases h
      next => exact ⟨q, c, tail, rfl, hquote, (Option.some.inj h).symm⟩
    · rw [if_neg hquote] at h
      cases h

lemma exists_of_clauseHere {cs value : List Char} (h : clauseHere key cs = some value) :
    ∃ blanks q c tail, cs = key.toList ++ ':' :: (blanks ++ q :: c :: tail) ∧
      (∀ b ∈ blanks, isBlank b = true) ∧ isQuote q = true ∧
        value = c :: tail.takeWhile (!isQuote ·) := by
  rw [clauseHere, Option.bind_eq_bind, Option.bind_eq_some_iff] at h
  obtain ⟨rest, hafter, hvalue⟩ := h
  obtain ⟨q, c, tail, hdrop, hquote, hvalue⟩ := exists_of_quotedValue hvalue
  obtain ⟨blanks, hblanks, hrest⟩ := exists_dropBlanks rest
  refine ⟨blanks, q, c, tail, ?_, hblanks, hquote, hvalue⟩
  rw [after?_eq_some_iff.1 hafter, ← hdrop, ← hrest, List.append_assoc, List.singleton_append]

/-- A value has at least one character. -/
lemma ne_empty_of_clause? {line : List Char} {value : String} (h : clause? key line = some value) :
    value ≠ "" := by
  rw [clause?, Option.map_eq_some_iff] at h
  obtain ⟨letters, htext, rfl⟩ := h
  obtain ⟨cs, -, hhere⟩ := exists_of_clauseText htext
  obtain ⟨-, q, c, tail, -, -, -, rfl⟩ := exists_of_clauseHere hhere
  intro hempty
  have hlist := congrArg String.toList hempty
  rw [String.toList_ofList] at hlist
  cases hlist

/-- A line without quotes has no clause. -/
lemma clause?_of_quoteless {line : List Char} (h : ∀ c ∈ line, isQuote c = false) :
    clause? key line = none := by
  rw [clause?, Option.map_eq_none_iff]
  by_contra hfound
  obtain ⟨value, hvalue⟩ := Option.ne_none_iff_exists'.1 hfound
  obtain ⟨cs, hsuffix, hhere⟩ := exists_of_clauseText hvalue
  obtain ⟨blanks, q, c, tail, rfl, -, hquote, -⟩ := exists_of_clauseHere hhere
  have hq : q ∈ line := by
    refine hsuffix.subset (List.mem_append_right _ (List.mem_cons_of_mem _ ?_))
    exact List.mem_append_right _ List.mem_cons_self
  rw [h q hq] at hquote
  cases hquote

/-! ## The clause of a written line -/

/-- Where two spellings of a text differ in where they are cut, a quote cannot stand in the part
that has none. -/
lemma cut_after_quoteless {x y z rest : List Char} {q : Char} (hx : ∀ c ∈ x, isQuote c = false)
    (hq : isQuote q = true) (h : z ++ q :: y = x ++ rest) :
    ∃ w, z = x ++ w ∧ rest = w ++ q :: y := by
  rcases List.append_eq_append_iff.1 h with ⟨w, rfl, hrest⟩ | ⟨w, rfl, hrest⟩
  · cases w with
    | nil => exact ⟨[], by simp, by simpa using hrest.symm⟩
    | cons d w =>
      rw [List.cons_append, List.cons.injEq] at hrest
      have hd := hx d (List.mem_append_right _ List.mem_cons_self)
      rw [← hrest.1, hq] at hd
      cases hd
  · exact ⟨w, rfl, hrest⟩

/-- What stands before the opening quote of a written line ends in the key and a colon. -/
lemma key_suffix_of_cut {pre front blanks : List Char} (hblanks : ∀ b ∈ blanks, isBlank b = true)
    (h : pre ++ (key.toList ++ ':' :: blanks) = front ++ [':', ' ']) : key.toList <:+ front := by
  have hsplit : (pre ++ key.toList ++ [':']) ++ blanks = (front ++ [':']) ++ [' '] := by
    simpa using h
  rcases List.append_eq_append_iff.1 hsplit with ⟨w, hw, hrest⟩ | ⟨w, hw, hrest⟩
  · rcases List.eq_nil_or_concat w with rfl | ⟨w, b, rfl⟩
    · rw [List.append_nil, List.append_left_inj] at hw
      exact ⟨pre, hw.symm⟩
    · rw [List.concat_eq_append, ← List.append_assoc] at hw
      have hb := (List.append_inj' hw rfl).2
      rw [List.cons.injEq] at hb
      have hblank := hblanks b (by simp [hrest])
      rw [← hb.1] at hblank
      cases hblank
  · rcases List.eq_nil_or_concat w with rfl | ⟨w, b, rfl⟩
    · rw [List.append_nil, List.append_left_inj] at hw
      exact ⟨pre, hw⟩
    · rw [List.concat_eq_append, ← List.append_assoc] at hw
      have hb := (List.append_inj' hw rfl).2
      rw [List.cons.injEq] at hb
      have hspace : b ∈ [' '] := by
        rw [hrest]
        simp
      rw [List.mem_singleton, ← hb.1] at hspace
      cases hspace

/-- A written line: a key after some text, a colon, and a value between quotes. -/
def written (front value : List Char) : List Char := front ++ ':' :: ' ' :: '"' :: (value ++ ['"'])

variable {front value : List Char}

lemma stop_at_quote (h : ∀ c ∈ value, isQuote c = false) :
    (value ++ ['"']).takeWhile (!isQuote ·) = value ∧
      (value ++ ['"']).dropWhile (!isQuote ·) = ['"'] := by
  refine takeWhile_append_stop (fun c hc => ?_) (fun c hc => ?_)
  · rw [h c hc]
    rfl
  · cases hc
    rfl

lemma eq_of_clauseHere_written (hfront : ∀ c ∈ front, isQuote c = false)
    (hvalue : ∀ c ∈ value, isQuote c = false) (hne : value ≠ []) {cs found : List Char}
    (hsuffix : cs <:+ written front value) (h : clauseHere key cs = some found) :
    found = value ∧ key.toList <:+ front := by
  obtain ⟨blanks, q, c, tail, rfl, hblanks, hquote, rfl⟩ := exists_of_clauseHere h
  obtain ⟨pre, hpre⟩ := hsuffix
  have hcolon : ∀ c ∈ front ++ [':', ' '], isQuote c = false := by
    intro c hc
    rcases List.mem_append.1 hc with hc | hc
    · exact hfront c hc
    · rcases List.mem_cons.1 hc with rfl | hc
      · rfl
      · rw [List.mem_singleton.1 hc]
        rfl
  have hline : (pre ++ (key.toList ++ ':' :: blanks)) ++ q :: (c :: tail) =
      (front ++ [':', ' ']) ++ ('"' :: (value ++ ['"'])) := by
    simpa [written] using hpre
  obtain ⟨w, hcut, hrest⟩ := cut_after_quoteless hcolon hquote hline
  cases w with
  | nil =>
    rw [List.nil_append, List.cons.injEq] at hrest
    rw [List.append_nil] at hcut
    refine ⟨?_, key_suffix_of_cut hblanks hcut⟩
    obtain ⟨d, ds, rfl⟩ := List.exists_cons_of_ne_nil hne
    obtain ⟨hd, htail⟩ := List.cons.inj hrest.2
    have htail : ds ++ ['"'] = tail := htail
    rw [← htail, ← hd, (stop_at_quote fun c hc => hvalue c (List.mem_cons_of_mem _ hc)).1]
  | cons d w =>
    -- The other quote is the last character, and nothing follows it.
    rw [List.cons_append, List.cons.injEq] at hrest
    obtain ⟨w', -, hend⟩ := cut_after_quoteless hvalue hquote hrest.2.symm
    have hlength := congrArg List.length hend
    simp at hlength
    omega

lemma clauseHere_written (hvalue : ∀ c ∈ value, isQuote c = false) (hne : value ≠ []) :
    clauseHere key (written key.toList value) = some value := by
  obtain ⟨d, ds, rfl⟩ := List.exists_cons_of_ne_nil hne
  have hafter : after? (key.toList ++ [':']) (written key.toList (d :: ds)) =
      some (' ' :: '"' :: (d :: ds ++ ['"'])) := by
    rw [after?_eq_some_iff, written, List.append_assoc, List.singleton_append]
  have hdrop : dropBlanks (' ' :: '"' :: (d :: ds ++ ['"'])) = '"' :: d :: (ds ++ ['"']) := rfl
  obtain ⟨htake, hrest⟩ := stop_at_quote fun c hc => hvalue c (List.mem_cons_of_mem d hc)
  rw [clauseHere, hafter, Option.bind_eq_bind, Option.bind_some, hdrop, quotedValue,
    if_pos (by decide), hrest, htake]

/-- A written line has the clause it was written for, and with another key only if that key is what
the text before the colon ends in. -/
theorem clause?_written (hfront : ∀ c ∈ front, isQuote c = false) {text : String}
    (htext : ∀ c ∈ text.toList, isQuote c = false) (hne : text ≠ "") :
    clause? key (written front text.toList) =
      if key.toList <:+ front then some text else none := by
  have hne : text.toList ≠ [] := fun h => hne (String.toList_eq_nil_iff.1 h)
  rw [clause?]
  by_cases hkey : key.toList <:+ front
  · rw [if_pos hkey]
    obtain ⟨pre, rfl⟩ := hkey
    have hsuffix : written key.toList text.toList <:+ written (pre ++ key.toList) text.toList :=
      ⟨pre, by simp [written]⟩
    have hfound := isSome_clauseText hsuffix (clauseHere_written htext hne)
    obtain ⟨value, hvalue⟩ := Option.isSome_iff_exists.1 hfound
    obtain ⟨cs, hcs, hhere⟩ := exists_of_clauseText hvalue
    rw [hvalue, (eq_of_clauseHere_written hfront htext hne hcs hhere).1, Option.map_some,
      String.ofList_toList]
  · rw [if_neg hkey, Option.map_eq_none_iff]
    by_contra hfound
    obtain ⟨value, hvalue⟩ := Option.ne_none_iff_exists'.1 hfound
    obtain ⟨cs, hcs, hhere⟩ := exists_of_clauseText hvalue
    exact hkey (eq_of_clauseHere_written hfront htext hne hcs hhere).2

end AgentScript.Script
