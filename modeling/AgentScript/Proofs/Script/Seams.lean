import AgentScript.Proofs.Script.Headers

/-!
# Text behind a header

A header ends with its brace, and its reader looks no further: what follows the brace can be
exchanged without the header becoming another (`Header.read?_cut`).  Blanks behind a text therefore
make no header of it and take none away; they only stand behind what is left
(`Header.read?_append_blanks`).

Each kind of header begins with its keyword, so that no text begins with headers of two kinds
(`Header.read?_eq_some_iff`), and a text that begins with another character has none
(`Header.read?_eq_none`).

The small readers of names, types and single characters stop at a seam that they cannot cross, and
that is either a brace or a run of blanks.
-/

namespace AgentScript.Script

open AgentScript.Text

/-! ## Small readers at a seam -/

/-- Text that no name and no type goes on with, not even behind a comma. -/
structure Stops (stop : List Char) : Prop where
  name : ∀ c, stop.head? = some c → isWord c = false
  type : readTypeTail stop = ([], stop)
  comma : readAfterComma stop = none

lemma stops_brace (rest : List Char) : Stops ('{' :: rest) where
  name := by
    rintro c ⟨⟩
    decide
  type := by
    rw [readTypeTail, if_neg (by decide), if_neg (by decide)]
  comma := by
    rw [readAfterComma, if_neg (by decide), if_neg (by decide)]

lemma stops_blanks {blanks : List Char} (h : ∀ b ∈ blanks, isBlank b = true) : Stops blanks := by
  have hchar : ∀ b ∈ blanks, isTypeChar b = false := by
    intro b hb
    by_contra htype
    rw [Bool.not_eq_false] at htype
    have hblank := h b hb
    rw [isBlank_eq_false_of_isTypeChar htype] at hblank
    cases hblank
  refine ⟨fun c hc => ?_, ?_, ?_⟩
  · by_contra hword
    rw [Bool.not_eq_false] at hword
    have hblank := h c (List.mem_of_mem_head? hc)
    rw [isBlank_eq_false_of_isWord hword] at hblank
    cases hblank
  · cases blanks with
    | nil => rfl
    | cons b blanks =>
      have hcomma : b ≠ ',' := by
        rintro rfl
        exact absurd (h ',' List.mem_cons_self) (by decide)
      rw [readTypeTail, if_neg (by rw [hchar b List.mem_cons_self]; decide), if_neg hcomma]
  · induction blanks with
    | nil => rfl
    | cons b blanks ih =>
      rw [readAfterComma, if_neg (by rw [hchar b List.mem_cons_self]; decide),
        if_pos (h b List.mem_cons_self), ih (fun d hd => h d (List.mem_cons_of_mem b hd))
          fun d hd => hchar d (List.mem_cons_of_mem b hd)]

variable {stop : List Char}

lemma readName_append_stop (h : Stops stop) (cs : List Char) :
    readName (cs ++ stop) = (readName cs).map fun read => (read.1, read.2 ++ stop) := by
  have hrun : ∀ c ∈ cs.takeWhile isWord, isWord c = true := fun c hc => List.mem_takeWhile_imp hc
  have hnext : ∀ c, (cs.dropWhile isWord ++ stop).head? = some c → isWord c = false := by
    intro c hc
    cases hrest : cs.dropWhile isWord with
    | nil => exact h.name c (by rwa [hrest, List.nil_append] at hc)
    | cons d ds =>
      have hd := List.head?_dropWhile_not isWord cs
      rw [hrest, List.head?_cons] at hd
      rw [hrest, List.cons_append, List.head?_cons, Option.some.injEq] at hc
      exact hc ▸ by simpa using hd
  have hsplit : cs ++ stop = cs.takeWhile isWord ++ (cs.dropWhile isWord ++ stop) := by
    rw [← List.append_assoc, List.takeWhile_append_dropWhile]
  obtain ⟨htake, hdrop⟩ := takeWhile_append_stop hrun hnext
  rw [← hsplit] at htake hdrop
  rw [readName, readName, htake, hdrop]
  cases cs.takeWhile isWord <;> rfl

mutual

lemma readTypeTail_append_stop (h : Stops stop) (cs : List Char) :
    readTypeTail (cs ++ stop) = ((readTypeTail cs).1, (readTypeTail cs).2 ++ stop) := by
  cases cs with
  | nil => exact h.type
  | cons c cs =>
    rw [List.cons_append, readTypeTail, readTypeTail]
    by_cases hchar : isTypeChar c = true
    · rw [if_pos hchar, if_pos hchar, readTypeTail_append_stop h cs]
    · rw [if_neg hchar, if_neg hchar]
      by_cases hcomma : c = ','
      · rw [if_pos hcomma, if_pos hcomma, readAfterComma_append_stop h cs]
        cases readAfterComma cs <;> rfl
      · rw [if_neg hcomma, if_neg hcomma]
        rfl

lemma readAfterComma_append_stop (h : Stops stop) (cs : List Char) :
    readAfterComma (cs ++ stop) =
      (readAfterComma cs).map fun read => (read.1, read.2 ++ stop) := by
  cases cs with
  | nil => exact h.comma
  | cons c cs =>
    rw [List.cons_append, readAfterComma, readAfterComma]
    by_cases hchar : isTypeChar c = true
    · rw [if_pos hchar, if_pos hchar, readTypeTail_append_stop h cs]
      rfl
    · rw [if_neg hchar, if_neg hchar]
      by_cases hblank : isBlank c = true
      · rw [if_pos hblank, if_pos hblank, readAfterComma_append_stop h cs]
        cases readAfterComma cs <;> rfl
      · rw [if_neg hblank, if_neg hblank]
        rfl

end

lemma readType_append_stop (h : Stops stop) (cs : List Char) :
    readType (cs ++ stop) = (readType cs).map fun read => (read.1, read.2 ++ stop) := by
  cases cs with
  | nil =>
    -- A text that could be a type would go on a type.
    cases stop with
    | nil => rfl
    | cons c rest =>
      have htype := h.type
      rw [readTypeTail] at htype
      by_cases hchar : isTypeChar c = true
      · rw [if_pos hchar] at htype
        cases htype
      · exact if_neg hchar
  | cons c cs =>
    rw [List.cons_append, readType, readType, readTypeTail_append_stop h cs]
    split <;> rfl

lemma expect_append {c : Char} (h : stop.head? ≠ some c) (cs : List Char) :
    expect c (cs ++ stop) = (expect c cs).map (· ++ stop) := by
  cases cs with
  | nil =>
    cases stop with
    | nil => rfl
    | cons d ds =>
      apply if_neg
      rintro rfl
      exact h rfl
  | cons d ds =>
    rw [List.cons_append, expect, expect]
    split <;> rfl

lemma after?_append_stop {ls : List Char} (h : ∀ l ∈ ls, stop.head? ≠ some l) (cs : List Char) :
    after? ls (cs ++ stop) = (after? ls cs).map (· ++ stop) := by
  induction ls generalizing cs with
  | nil => rfl
  | cons l ls ih =>
    cases cs with
    | nil => exact Header.after?_eq_none (h l List.mem_cons_self)
    | cons c cs =>
      rw [List.cons_append, after?, after?]
      by_cases hl : l = c
      · rw [if_pos hl, if_pos hl, ih (fun l' hl' => h l' (List.mem_cons_of_mem l hl'))]
      · rw [if_neg hl, if_neg hl]
        rfl

namespace Header

/-! ## Up to the brace -/

variable {front x y : List Char} {h : Header}

lemma dropBlanks_brace (front x : List Char) :
    dropBlanks (front ++ '{' :: x) = dropBlanks front ++ '{' :: x := by
  obtain ⟨blanks, hblanks, heq⟩ := exists_dropBlanks front
  have hstop : dropBlanks (dropBlanks front ++ '{' :: x) = dropBlanks front ++ '{' :: x := by
    apply dropBlanks_eq_self
    intro c hc
    cases hrest : dropBlanks front with
    | nil =>
      rw [hrest, List.nil_append, List.head?_cons, Option.some.injEq] at hc
      rw [← hc]
      decide
    | cons d ds =>
      rw [hrest, List.cons_append, List.head?_cons, Option.some.injEq] at hc
      exact head?_dropBlanks (by rw [hrest, List.head?_cons, hc])
  calc dropBlanks (front ++ '{' :: x)
      = dropBlanks (blanks ++ (dropBlanks front ++ '{' :: x)) := by
        rw [← List.append_assoc, ← heq]
    _ = dropBlanks front ++ '{' :: x := by rw [dropBlanks_append hblanks, hstop]

lemma readBlanks_brace (front x : List Char) :
    readBlanks (front ++ '{' :: x) = (readBlanks front).map (· ++ '{' :: x) := by
  cases front with
  | nil => rfl
  | cons c cs =>
    rw [List.cons_append, readBlanks, readBlanks, dropBlanks_brace]
    split <;> rfl

lemma readNamed_brace {word : String} (hword : '{' ∉ word.toList) (front x : List Char) :
    readNamed word (front ++ '{' :: x) =
      (readNamed word front).map fun read => (read.1, read.2 ++ '{' :: x) := by
  have hstop : ∀ l ∈ word.toList, ('{' :: x).head? ≠ some l := by
    rintro l hl ⟨⟩
    exact hword hl
  rw [readNamed, readNamed, dropBlanks_brace, after?_append_stop hstop]
  cases after? word.toList (dropBlanks front) with
  | none => rfl
  | some rest =>
    simp only [Option.map_some, Option.bind_eq_bind, Option.bind_some, readBlanks_brace]
    cases readBlanks rest with
    | none => rfl
    | some rest =>
      simp only [Option.map_some, Option.bind_some, readName_append_stop (stops_brace x)]
      cases readName rest with
      | none => rfl
      | some read =>
        simp only [Option.map_some, Option.bind_some, dropBlanks_brace]
        rfl

lemma readReturns_brace (front x : List Char) :
    readReturns (front ++ '{' :: x) =
      (readReturns front).map fun read => (read.1, read.2 ++ '{' :: x) := by
  have hstop : ∀ c : Char, c ≠ '{' → ('{' :: x).head? ≠ some c := by
    rintro c hc ⟨⟩
    exact hc rfl
  rw [readReturns, readReturns, expect_append (hstop '-' (by decide))]
  cases expect '-' front with
  | none => rfl
  | some rest =>
    simp only [Option.map_some, Option.bind_eq_bind, Option.bind_some,
      expect_append (hstop '>' (by decide))]
    cases expect '>' rest with
    | none => rfl
    | some rest =>
      simp only [Option.map_some, Option.bind_some, dropBlanks_brace,
        readType_append_stop (stops_brace x)]

/-- The brace at the seam is the first that is left only if nothing stands before it. -/
lemma expect_brace_iff {rest : List Char} : expect '{' (rest ++ '{' :: x) = some x ↔ rest = [] := by
  constructor
  · intro h
    cases rest with
    | nil => rfl
    | cons c cs =>
      rw [expect_eq_some, List.cons_append, List.cons.injEq] at h
      have hlength := congrArg List.length h.2
      rw [List.length_append, List.length_cons] at hlength
      omega
  · rintro rfl
    rfl

/-- A keyword and a name that end at the seam end there whatever follows. -/
lemma readNamed_cut {word name : String} (hword : '{' ∉ word.toList)
    (hr : readNamed word (front ++ '{' :: x) = some (name, '{' :: x)) :
    readNamed word (front ++ '{' :: y) = some (name, '{' :: y) := by
  rw [readNamed_brace hword, Option.map_eq_some_iff] at hr
  obtain ⟨read, hread, heq⟩ := hr
  obtain ⟨rfl, hrest⟩ := Prod.mk.inj heq
  have hnil : read.2 = [] := expect_brace_iff.1 (expect_eq_some.2 hrest)
  rw [readNamed_brace hword, hread, Option.map_some, hnil, List.nil_append]

lemma readAgent_cut (hr : readAgent (front ++ '{' :: x) = some (h, x)) :
    readAgent (front ++ '{' :: y) = some (h, y) := by
  obtain ⟨name, hname, rfl⟩ := readAgent_eq_some_iff.1 hr
  exact readAgent_eq_some_iff.2 ⟨name, readNamed_cut (by decide) hname, rfl⟩

lemma readEvent_cut (hr : readEvent (front ++ '{' :: x) = some (h, x)) :
    readEvent (front ++ '{' :: y) = some (h, y) := by
  obtain ⟨name, hname, rfl⟩ := readEvent_eq_some_iff.1 hr
  exact readEvent_eq_some_iff.2 ⟨name, readNamed_cut (by decide) hname, rfl⟩

lemma readTypeDecl_cut (hr : readTypeDecl (front ++ '{' :: x) = some (h, x)) :
    readTypeDecl (front ++ '{' :: y) = some (h, y) := by
  obtain ⟨name, hname, rfl⟩ := readTypeDecl_eq_some_iff.1 hr
  exact readTypeDecl_eq_some_iff.2 ⟨name, readNamed_cut (by decide) hname, rfl⟩

lemma readState_cut (hr : readState (front ++ '{' :: x) = some (h, x)) :
    readState (front ++ '{' :: y) = some (h, y) := by
  have hstop : ∀ z : List Char, ∀ l ∈ "state".toList, ('{' :: z).head? ≠ some l := by
    rintro z l hl ⟨⟩
    revert hl
    decide
  obtain ⟨rest, hafter, hbrace, rfl⟩ := readState_eq_some_iff.1 hr
  rw [dropBlanks_brace, after?_append_stop (hstop x), Option.map_eq_some_iff] at hafter
  obtain ⟨rest, hafter, rfl⟩ := hafter
  rw [dropBlanks_brace] at hbrace
  have hnil : dropBlanks rest = [] := expect_brace_iff.1 (expect_eq_some.2 hbrace)
  refine readState_eq_some_iff.2 ⟨rest ++ '{' :: y, ?_, ?_, rfl⟩
  · rw [dropBlanks_brace, after?_append_stop (hstop y), hafter, Option.map_some]
  · rw [dropBlanks_brace, hnil, List.nil_append]

/-- Parameters end before the seam, since the brace there is still to come. -/
lemma readParams_cut {rest params after : List Char}
    (hr : readParams (rest ++ '{' :: x) = some (params, after)) (hafter : '{' :: x <:+ after) :
    ∃ left, after = left ++ '{' :: x ∧
      readParams (rest ++ '{' :: y) = some (params, left ++ '{' :: y) := by
  by_cases hparen : ')' ∈ rest
  · obtain ⟨inner, left, rfl, hinner⟩ := List.eq_append_cons_of_mem hparen
    rw [List.append_assoc, List.cons_append, readParams_append hinner, Option.some.injEq,
      Prod.mk.injEq] at hr
    obtain ⟨rfl, rfl⟩ := hr
    refine ⟨left, rfl, ?_⟩
    rw [List.append_assoc, List.cons_append, readParams_append hinner]
  · have hall : ∀ c ∈ rest ++ ['{'], (c != ')') = true := by
      intro c hc
      rw [bne_iff_ne]
      rintro rfl
      rcases List.mem_append.1 hc with hc | hc
      · exact hparen hc
      · exact absurd (List.mem_singleton.1 hc) (by decide)
    have hdrop : (rest ++ '{' :: x).dropWhile (· != ')') = x.dropWhile (· != ')') := by
      rw [← List.singleton_append, ← List.append_assoc, List.dropWhile_append_of_pos hall]
    rw [readParams, hdrop] at hr
    split at hr
    next => cases hr
    next c left heq =>
      obtain ⟨-, rfl⟩ := Prod.mk.inj (Option.some.inj hr)
      have hsuffix : x.dropWhile (· != ')') <:+ x := List.dropWhile_suffix _
      have hleft := hsuffix.length_le
      rw [heq] at hleft
      have hlength := hafter.length_le
      simp only [List.length_cons] at hleft hlength
      omega

lemma readEnd_cut {after : List Char} {returns : Option String}
    (hr : readEnd (after ++ '{' :: x) = some (returns, x)) :
    readEnd (after ++ '{' :: y) = some (returns, y) := by
  rw [readEnd, dropBlanks_brace, readReturns_brace] at hr
  rw [readEnd, dropBlanks_brace, readReturns_brace]
  cases hreturns : readReturns (dropBlanks after) with
  | none =>
    rw [hreturns] at hr
    simp only [Option.map_none, Option.map_eq_some_iff, Prod.mk.injEq] at hr
    obtain ⟨_, hbrace, rfl, rfl⟩ := hr
    rw [expect_brace_iff] at hbrace
    rw [hbrace]
    rfl
  | some read =>
    rw [hreturns] at hr
    simp only [Option.map_some, Option.map_eq_some_iff, Prod.mk.injEq, dropBlanks_brace] at hr
    obtain ⟨_, hbrace, rfl, rfl⟩ := hr
    rw [expect_brace_iff] at hbrace
    simp only [Option.map_some, dropBlanks_brace, hbrace]
    rfl

lemma readTool_cut (hr : readTool (front ++ '{' :: x) = some (h, x)) :
    readTool (front ++ '{' :: y) = some (h, y) := by
  have hparen : ('{' :: x).head? ≠ some '(' := by
    rintro ⟨⟩
  obtain ⟨name, left, params, after, returns, hname, hparams, hend, rfl⟩ :=
    readTool_eq_some_iff.1 hr
  rw [readNamed_brace (by decide), Option.map_eq_some_iff] at hname
  obtain ⟨⟨name', rest⟩, hname, heq⟩ := hname
  obtain ⟨rfl, hrest⟩ := Prod.mk.inj heq
  have hopen : expect '(' (rest ++ '{' :: x) = some left := expect_eq_some.2 hrest
  rw [expect_append hparen, Option.map_eq_some_iff] at hopen
  obtain ⟨inner, hopen, rfl⟩ := hopen
  rw [expect_eq_some] at hopen
  -- The brace of the header is still to come after the parameters.
  obtain ⟨after, rfl, hcut⟩ := readParams_cut (y := y) hparams (readEnd_suffix hend)
  refine readTool_eq_some_iff.2
    ⟨name', inner ++ '{' :: y, params, after ++ '{' :: y, returns, ?_, hcut, readEnd_cut hend, rfl⟩
  rw [readNamed_brace (by decide), hname, Option.map_some, hopen]
  rfl

/-! ## One kind of header at a time -/

variable {cs rest : List Char} {read : Header × List Char}

lemma exists_of_readNamed {word name : String} (hr : readNamed word cs = some (name, rest)) :
    ∃ after, dropBlanks cs = word.toList ++ after := by
  simp only [readNamed, Option.bind_eq_bind, Option.bind_eq_some_iff] at hr
  obtain ⟨after, hafter, -⟩ := hr
  exact ⟨after, after?_eq_some_iff.1 hafter⟩

lemma exists_of_readTool (hr : readTool cs = some read) :
    ∃ after, dropBlanks cs = "tool".toList ++ after := by
  obtain ⟨name, left, params, after, returns, hname, -⟩ := readTool_eq_some_iff.1 hr
  exact exists_of_readNamed hname

lemma exists_of_readEvent (hr : readEvent cs = some read) :
    ∃ after, dropBlanks cs = "on".toList ++ after := by
  obtain ⟨name, hname, -⟩ := readEvent_eq_some_iff.1 hr
  exact exists_of_readNamed hname

lemma exists_of_readState (hr : readState cs = some read) :
    ∃ after, dropBlanks cs = "state".toList ++ after := by
  obtain ⟨after, hafter, -⟩ := readState_eq_some_iff.1 hr
  exact ⟨after, after?_eq_some_iff.1 hafter⟩

lemma exists_of_readTypeDecl (hr : readTypeDecl cs = some read) :
    ∃ after, dropBlanks cs = "type".toList ++ after := by
  obtain ⟨name, hname, -⟩ := readTypeDecl_eq_some_iff.1 hr
  exact exists_of_readNamed hname

/-- No text begins with headers of two kinds. -/
lemma read?_eq_some_iff : read? cs = some read ↔
    readAgent cs = some read ∨ readTool cs = some read ∨ readEvent cs = some read ∨
      readState cs = some read ∨ readTypeDecl cs = some read := by
  have hnamed : ∀ {word : String} {after : List Char}, dropBlanks cs = after →
      after? word.toList after = none → readNamed word cs = none := by
    intro word after hdrop hnone
    rw [readNamed, hdrop, hnone]
    rfl
  constructor
  · intro hr
    simp only [read?, Option.orElse_eq_orElse, Option.orElse_eq_or, Option.or_eq_some_iff] at hr
    rcases hr with hr | ⟨-, hr | ⟨-, hr | ⟨-, hr | ⟨-, hr⟩⟩⟩⟩
    · exact .inl hr
    · exact .inr (.inl hr)
    · exact .inr (.inr (.inl hr))
    · exact .inr (.inr (.inr (.inl hr)))
    · exact .inr (.inr (.inr (.inr hr)))
  · rintro (hr | hr | hr | hr | hr)
    · rw [read?, hr]
      rfl
    · obtain ⟨after, hdrop⟩ := exists_of_readTool hr
      have hagent : readNamed "agent" cs = none := hnamed hdrop rfl
      rw [read?, readAgent, hagent, hr]
      rfl
    · obtain ⟨after, hdrop⟩ := exists_of_readEvent hr
      have hagent : readNamed "agent" cs = none := hnamed hdrop rfl
      have htool : readNamed "tool" cs = none := hnamed hdrop rfl
      rw [read?, readAgent, readTool, hagent, htool, hr]
      rfl
    · obtain ⟨after, hdrop⟩ := exists_of_readState hr
      have hagent : readNamed "agent" cs = none := hnamed hdrop rfl
      have htool : readNamed "tool" cs = none := hnamed hdrop rfl
      have hevent : readNamed "on" cs = none := hnamed hdrop rfl
      rw [read?, readAgent, readTool, readEvent, hagent, htool, hevent, hr]
      rfl
    · obtain ⟨after, hdrop⟩ := exists_of_readTypeDecl hr
      have hagent : readNamed "agent" cs = none := hnamed hdrop rfl
      have htool : readNamed "tool" cs = none := hnamed hdrop rfl
      have hevent : readNamed "on" cs = none := hnamed hdrop rfl
      have hstate : readState cs = none := by
        rw [readState, hdrop]
        rfl
      rw [read?, readAgent, readTool, readEvent, hagent, htool, hevent, hstate, hr]
      rfl

/-- A header begins with a keyword. -/
lemma exists_keyword (hr : read? cs = some read) :
    ∃ word ∈ ["agent", "tool", "on", "state", "type"], ∃ after,
      dropBlanks cs = word.toList ++ after := by
  rcases read?_eq_some_iff.1 hr with hr | hr | hr | hr | hr
  · obtain ⟨name, hname, -⟩ := readAgent_eq_some_iff.1 hr
    exact ⟨"agent", by simp, exists_of_readNamed hname⟩
  · exact ⟨"tool", by simp, exists_of_readTool hr⟩
  · exact ⟨"on", by simp, exists_of_readEvent hr⟩
  · exact ⟨"state", by simp, exists_of_readState hr⟩
  · exact ⟨"type", by simp, exists_of_readTypeDecl hr⟩

/-- A line that begins with a character that no keyword begins with has no header. -/
lemma read?_eq_none (h : ∀ c, (dropBlanks cs).head? = some c → c ∉ ['a', 't', 'o', 's']) :
    read? cs = none := by
  rw [Option.eq_none_iff_forall_ne_some]
  intro read hr
  obtain ⟨word, hword, after, hdrop⟩ := exists_keyword hr
  rw [hdrop] at h
  simp only [List.mem_cons, List.not_mem_nil, or_false] at hword
  rcases hword with rfl | rfl | rfl | rfl | rfl <;> exact h _ rfl (by decide)

/-- **What follows a header's brace does not count for the header.** -/
theorem read?_cut (hr : read? (front ++ '{' :: x) = some (h, x)) :
    read? (front ++ '{' :: y) = some (h, y) := by
  rw [read?_eq_some_iff] at hr ⊢
  rcases hr with hr | hr | hr | hr | hr
  · exact .inl (readAgent_cut hr)
  · exact .inr (.inl (readTool_cut hr))
  · exact .inr (.inr (.inl (readEvent_cut hr)))
  · exact .inr (.inr (.inr (.inl (readState_cut hr))))
  · exact .inr (.inr (.inr (.inr (readTypeDecl_cut hr))))

/-! ## Blanks behind -/

/-- A reader that ends at a brace and does not care what follows it does not care for blanks at the
end of the text either. -/
lemma append_blanks_of_cut {reader : List Char → Option (Header × List Char)}
    (hsuffix : ∀ cs h rest, reader cs = some (h, rest) → '{' :: rest <:+ cs)
    (hcut : ∀ front x y h, reader (front ++ '{' :: x) = some (h, x) →
      reader (front ++ '{' :: y) = some (h, y))
    {blanks : List Char} (hblanks : ∀ b ∈ blanks, isBlank b = true) (cs : List Char) :
    reader (cs ++ blanks) = (reader cs).map fun read => (read.1, read.2 ++ blanks) := by
  cases hread : reader cs with
  | some read =>
    obtain ⟨h, rest⟩ := read
    obtain ⟨front, rfl⟩ := hsuffix cs h rest hread
    rw [List.append_assoc, List.cons_append]
    exact hcut front rest (rest ++ blanks) h hread
  | none =>
    cases hread' : reader (cs ++ blanks) with
    | none => rfl
    | some read =>
      -- The brace of a header does not stand among the blanks.
      obtain ⟨h, rest⟩ := read
      obtain ⟨front, heq⟩ := hsuffix _ h rest hread'
      rcases List.append_eq_append_iff.1 heq with ⟨inner, hcs, hrest⟩ | ⟨inner, -, hrest⟩
      · cases inner with
        | nil =>
          rw [List.nil_append] at hrest
          have hbrace := hblanks '{' (hrest ▸ List.mem_cons_self)
          cases hbrace
        | cons c inner =>
          obtain ⟨rfl, rfl⟩ := List.cons.inj hrest
          rw [hcs, List.append_assoc, List.cons_append] at hread'
          have hshort := hcut front (inner ++ blanks) inner h hread'
          rw [← hcs, hread] at hshort
          cases hshort
      · have hbrace := hblanks '{' (hrest ▸ List.mem_append_right _ List.mem_cons_self)
        cases hbrace

/-- Blanks behind a text stand behind what its header leaves. -/
theorem read?_append_blanks {blanks : List Char} (hblanks : ∀ b ∈ blanks, isBlank b = true)
    (cs : List Char) :
    read? (cs ++ blanks) = (read? cs).map fun read => (read.1, read.2 ++ blanks) :=
  append_blanks_of_cut (fun _ _ _ => read?_suffix) (fun _ _ _ _ => read?_cut) hblanks cs

lemma readAgent_append_blanks {blanks : List Char} (hblanks : ∀ b ∈ blanks, isBlank b = true)
    (cs : List Char) :
    readAgent (cs ++ blanks) = (readAgent cs).map fun read => (read.1, read.2 ++ blanks) :=
  append_blanks_of_cut (fun _ _ _ => readAgent_suffix) (fun _ _ _ _ => readAgent_cut) hblanks cs

end Header

end AgentScript.Script
