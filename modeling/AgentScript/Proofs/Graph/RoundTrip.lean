import AgentScript.Proofs.Graph.Blocks

/-!
# Reading the canonical script of a graph

A canonical script is its blocks with empty lines between them, and the lines come back from the
text as they were written.  Reading it therefore declares what the sheets of the graph say and what
the states say that count for no agent (`Graph.unplaced_outline_script`).

What a graph must fulfil for this is mostly what its lint looks for: the conditions that remain are
gathered in `Graph.Legible`, and in `Graph.Regular` those under which everything in the graph comes
back as it was.
-/

namespace AgentScript

open Canonical Script Script.Reading Text

/-! ## Lines come back -/

lemma isLine_of_last {cs : List Char} {c : Char} (hnew : '\n' ∉ cs) (hlast : cs.getLast? = some c)
    (hc : c ≠ '\r') : IsLine cs := by
  refine ⟨hnew, fun hret => ?_⟩
  rw [hlast, Option.some.injEq] at hret
  exact hc hret

lemma newline_not_mem_of_isName {name : List Char} (h : isName name = true) : '\n' ∉ name := by
  intro hmem
  have hword := (isName_iff.1 h).2 '\n' hmem
  revert hword
  decide

lemma newline_not_mem_of_breaksQuotes {text : String} (h : Lint.breaksQuotes text = false) :
    '\n' ∉ text.toList := by
  intro hmem
  have hclass := List.any_eq_false.1 h '\n' hmem
  revert hclass
  decide

lemma isTextLine_opening {header : String} (h : '\n' ∉ header.toList) :
    IsTextLine (opening header) := by
  have hlast : (header.toList ++ [' ', '{']).getLast? = some '{' := by simp
  rw [IsTextLine, toList_opening]
  refine isLine_of_last (fun hmem => ?_) hlast (by decide)
  rcases List.mem_append.1 hmem with hmem | hmem
  · exact h hmem
  · revert hmem
    decide

lemma isTextLine_clauseLine {indent key text : String}
    (hfront : '\n' ∉ indent.toList ++ key.toList) (htext : Lint.breaksQuotes text = false) :
    IsTextLine (clauseLine indent key text) := by
  have hlast : (written (indent.toList ++ key.toList) text.toList).getLast? = some '"' := by
    rw [written, List.getLast?_append_of_ne_nil _ (List.cons_ne_nil _ _), ← List.cons_append,
      ← List.cons_append, ← List.cons_append, List.getLast?_concat]
  rw [IsTextLine, toList_clauseLine]
  refine isLine_of_last (fun hmem => ?_) hlast (by decide)
  rw [written] at hmem
  simp only [List.mem_append, List.mem_cons, List.not_mem_nil, or_false] at hmem
  rcases hmem with hmem | hmem | hmem | hmem | hmem | hmem
  · exact hfront (List.mem_append.2 hmem)
  · cases hmem
  · cases hmem
  · cases hmem
  · exact newline_not_mem_of_breaksQuotes htext hmem
  · cases hmem

/-- A line stays a line if it is indented. -/
lemma IsBodyLine.isTextLine_indented {text : String} (h : IsBodyLine text) {indent : String}
    (hindent : IsTextLine indent) : IsTextLine (indent ++ text) := by
  obtain ⟨hnew, hlast⟩ := h.1
  rw [IsTextLine, String.toList_append]
  refine ⟨fun hmem => (List.mem_append.1 hmem).elim hindent.1 hnew, fun hret => ?_⟩
  rw [List.getLast?_append, Option.or_eq_some_iff] at hret
  exact hret.elim hlast fun hret => hindent.2 hret.2

lemma isTextLine_toolLines {t : ToolContent} (h : t.Readable) :
    ∀ l ∈ toolLines t, IsTextLine l := by
  have hheader : '\n' ∉ ("  tool " ++ t.label ++ "(" ++ t.params.getD "" ++ ")" ++
      ((filled t.returns).map (" -> " ++ ·)).getD "").toList := by
    have hname := newline_not_mem_of_isName h.isName
    have hparams := (getD_params h).2
    have hreturns : '\n' ∉ (((filled t.returns).map (" -> " ++ ·)).getD "").toList := by
      cases hfilled : filled t.returns with
      | none => decide
      | some type => simpa using (h.returns type hfilled).2
    simp [hname, hparams, hreturns]
  intro l hl
  simp only [toolLines, List.mem_append, List.mem_cons, List.not_mem_nil, or_false,
    Option.mem_toList, Option.map_eq_some_iff] at hl
  rcases hl with ((rfl | rfl) | ⟨text, htext, rfl⟩) | rfl | rfl
  · decide
  · exact isTextLine_opening hheader
  · exact isTextLine_clauseLine (by decide) (h.description text (mem_filled.1 htext).1)
  · decide
  · decide

lemma isTextLine_eventLines {e : EventContent} (h : isName e.label.toList = true) :
    ∀ l ∈ eventLines e, IsTextLine l := by
  have hheader : '\n' ∉ ("  on " ++ e.label).toList := by
    simp [newline_not_mem_of_isName h]
  intro l hl
  simp only [eventLines, List.mem_cons, List.not_mem_nil, or_false] at hl
  rcases hl with rfl | rfl | rfl | rfl
  · decide
  · exact isTextLine_opening hheader
  · decide
  · decide

lemma isTextLine_stateLines {fields : List String} (h : ∀ f ∈ fields, IsBodyLine f) :
    ∀ l ∈ stateLines fields, IsTextLine l := by
  intro l hl
  cases fields with
  | nil => cases hl
  | cons f fields =>
    simp only [stateLines, List.mem_append, List.mem_cons, List.not_mem_nil, or_false,
      List.mem_map] at hl
    rcases hl with ((rfl | rfl) | ⟨f', hf', rfl⟩) | rfl
    · decide
    · exact isTextLine_opening (by decide)
    · exact (h f' (List.mem_cons.2 hf')).isTextLine_indented (by decide)
    · decide

lemma isTextLine_modelLines {s : Sheet} (h : s.Readable) :
    ∀ l ∈ modelLines s.agent, IsTextLine l := by
  intro l hl
  cases hmodel : filled s.agent.model with
  | none =>
    rw [modelLines, hmodel] at hl
    cases hl
  | some model =>
    have hname := h.model model (mem_filled.1 (Option.mem_def.2 hmodel)).1
    simp only [modelLines, hmodel, List.mem_cons, List.not_mem_nil, or_false] at hl
    rcases hl with rfl | rfl | rfl | rfl | rfl
    · decide
    · exact isTextLine_opening (by decide)
    · exact isTextLine_clauseLine (by decide) (Sheet.breaksQuotes_provider h).1
    · exact isTextLine_clauseLine (by decide) hname
    · decide

lemma isTextLine_lines {s : Sheet} (h : s.Readable) : ∀ l ∈ s.lines, IsTextLine l := by
  have hheader : '\n' ∉ ("agent " ++ s.agent.label).toList := by
    simp [newline_not_mem_of_isName h.isName]
  intro l hl
  simp only [Sheet.lines, Sheet.ownLines, Sheet.memberLines, List.mem_append, List.mem_cons,
    List.not_mem_nil, or_false, Option.mem_toList, Option.map_eq_some_iff, List.mem_flatMap] at hl
  rcases hl with rfl | ((⟨text, htext, rfl⟩ | ⟨text, htext, rfl⟩) | hl) |
    ((hl | ⟨t, ht, hl⟩) | ⟨e, he, hl⟩) | rfl
  · exact isTextLine_opening hheader
  · exact isTextLine_clauseLine (by decide) (h.description text (mem_filled.1 htext).1)
  · exact isTextLine_clauseLine (by decide) (h.version text (mem_filled.1 htext).1)
  · exact isTextLine_modelLines h l hl
  · exact isTextLine_stateLines h.fields l hl
  · exact isTextLine_toolLines (h.tools t ht) l hl
  · exact isTextLine_eventLines (h.events e he) l hl
  · decide

lemma isTextLine_typeBlock {s : StateContent} (h : s.Readable) {block : List String}
    (hblock : typeBlock? s = some block) : ∀ l ∈ block, IsTextLine l := by
  intro l hl
  cases hfields : s.fields.getD [] with
  | nil =>
    rw [typeBlock?, hfields] at hblock
    cases hblock
  | cons f fields =>
    have hheader : '\n' ∉ ("type " ++ s.typeName).toList := by
      simp [newline_not_mem_of_isName h.isName]
    rw [typeBlock?, hfields, Option.some.injEq] at hblock
    subst hblock
    simp only [List.mem_append, List.mem_cons, List.not_mem_nil, or_false, List.mem_map] at hl
    rcases hl with (rfl | ⟨f', hf', rfl⟩) | rfl
    · exact isTextLine_opening hheader
    · exact (h.fields f' (hfields ▸ List.mem_cons.2 hf')).isTextLine_indented (by decide)
    · decide

/-! ## The script as its blocks -/

/-- A block of a script and what reading it declares. -/
structure Block where
  lines : List String
  declared : Outline

/-- A block that comes back, wherever it stands: its lines are lines, it does not begin with a byte
order mark, and it is read as what it declares. -/
structure Block.Readable (b : Block) : Prop where
  isTextLine : ∀ l ∈ b.lines, IsTextLine l
  head : ∃ l ls, b.lines = l :: ls ∧ l.toList.head? ≠ some '\uFEFF'
  stanza : Stanza (b.lines.map String.toList) b.declared

/-- The blocks of a graph, each with what it declares. -/
def Graph.declaringBlocks (g : Graph) : List Block :=
  g.sheets.map (fun s => ⟨s.lines, s.declared⟩) ++
    g.looseStates.filterMap fun s => (typeBlock? s).map (⟨·, s.declared⟩)

/-- What a graph says in its canonical script. -/
def Graph.declared (g : Graph) : Outline :=
  Outline.join (g.declaringBlocks.map Block.declared)

lemma blocks_eq_map_lines (g : Graph) : blocks g = g.declaringBlocks.map Block.lines := by
  rw [blocks_eq, Graph.declaringBlocks, List.map_append, List.map_map, List.map_filterMap]
  refine congrArg (g.sheets.map Sheet.lines ++ g.looseStates.filterMap ·) (funext fun s => ?_)
  rw [Option.map_map]
  exact Option.map_id'.symm

/-- Blocks with empty lines between them make one stanza. -/
lemma stanza_separate {b : Block} {bs : List Block} (h : ∀ b' ∈ b :: bs, b'.Readable) :
    Stanza ((separate ((b :: bs).map Block.lines)).map String.toList)
      (Outline.join ((b :: bs).map Block.declared)) := by
  induction bs generalizing b with
  | nil =>
    rw [List.map_singleton, separate, List.map_singleton, Outline.join_cons, Outline.join_nil,
      Outline.append_empty]
    exact (h b List.mem_cons_self).stanza
  | cons b' bs ih =>
    have hrest := ih fun b'' hb'' => h b'' (List.mem_cons_of_mem b hb'')
    have hall := (h b List.mem_cons_self).stanza.append (stanza_empty.append hrest)
    rw [Outline.empty_append] at hall
    rw [List.map_cons, List.map_cons, separate, List.map_append, List.map_cons, List.map_cons,
      List.map_cons, Outline.join_cons]
    · exact hall
    · exact List.cons_ne_nil _ _

/-- The lines of the canonical script. -/
def Graph.scriptLines (g : Graph) : List (List Char) :=
  match separate (blocks g) with
  | [] => [[]]
  | ls => ls.map String.toList

lemma toList_script (g : Graph) : g.script.toList = unlines g.scriptLines := by
  rw [Graph.script, Graph.scriptLines]
  cases separate (blocks g) with
  | nil => rfl
  | cons l ls => rw [String.toList_ofList]

lemma mem_separate {bs : List (List String)} {l : String} (h : l ∈ separate bs) :
    l = "" ∨ ∃ b ∈ bs, l ∈ b := by
  induction bs with
  | nil => cases h
  | cons b bs ih =>
    cases bs with
    | nil => exact .inr ⟨b, List.mem_cons_self, h⟩
    | cons b' bs =>
      rw [separate] at h
      · rcases List.mem_append.1 h with h | h
        · exact .inr ⟨b, List.mem_cons_self, h⟩
        · rcases List.mem_cons.1 h with h | h
          · exact .inl h
          · rcases ih h with h | ⟨b'', hb'', h⟩
            · exact .inl h
            · exact .inr ⟨b'', List.mem_cons_of_mem b hb'', h⟩
      · exact List.cons_ne_nil _ _

variable {g : Graph}

lemma isLine_of_mem_scriptLines (h : ∀ b ∈ g.declaringBlocks, b.Readable) :
    ∀ l ∈ g.scriptLines, IsLine l := by
  intro l hl
  unfold Graph.scriptLines at hl
  split at hl
  next =>
    rw [List.mem_singleton.1 hl]
    exact ⟨List.not_mem_nil, by decide⟩
  next =>
    obtain ⟨text, htext, rfl⟩ := List.mem_map.1 hl
    rcases mem_separate htext with rfl | ⟨b, hb, hmem⟩
    · exact ⟨List.not_mem_nil, by decide⟩
    · rw [blocks_eq_map_lines] at hb
      obtain ⟨block, hblock, rfl⟩ := List.mem_map.1 hb
      exact (h block hblock).isTextLine text hmem

lemma exists_separate (b : List String) (bs : List (List String)) :
    ∃ rest, separate (b :: bs) = b ++ rest := by
  cases bs with
  | nil => exact ⟨[], (List.append_nil b).symm⟩
  | cons b' bs => exact ⟨"" :: separate (b' :: bs), rfl⟩

/-- A graph with a block has lines in its script, beginning with those of its first block. -/
lemma exists_separate_blocks {b : Block} {bs : List Block} (h : g.declaringBlocks = b :: bs) :
    ∃ rest, separate (blocks g) = b.lines ++ rest := by
  rw [blocks_eq_map_lines, h, List.map_cons]
  exact exists_separate b.lines _

lemma stanza_scriptLines (h : ∀ b ∈ g.declaringBlocks, b.Readable) :
    Stanza g.scriptLines g.declared := by
  cases hblocks : g.declaringBlocks with
  | nil =>
    -- A script of no blocks is one empty line, which declares nothing either.
    have hlines : g.scriptLines = [[]] := by
      rw [Graph.scriptLines, blocks_eq_map_lines, hblocks]
      rfl
    have hdeclared : g.declared = {} := by
      rw [Graph.declared, hblocks]
      rfl
    rw [hlines, hdeclared]
    exact stanza_empty
  | cons b bs =>
    have hall := stanza_separate fun b' hb' => h b' (hblocks ▸ hb')
    rw [← hblocks, ← blocks_eq_map_lines] at hall
    obtain ⟨l, ls, hlines, -⟩ := (h b (hblocks ▸ List.mem_cons_self)).head
    obtain ⟨rest, hseparate⟩ := exists_separate_blocks hblocks
    rw [hlines, List.cons_append] at hseparate
    rw [hseparate] at hall
    rw [Graph.scriptLines, hseparate]
    exact hall

lemma dropByteOrderMark_script (h : ∀ b ∈ g.declaringBlocks, b.Readable) :
    dropByteOrderMark g.script.toList = g.script.toList := by
  have hhead : g.script.toList.head? ≠ some '\uFEFF' := by
    rw [toList_script, Graph.scriptLines]
    cases hblocks : g.declaringBlocks with
    | nil =>
      rw [blocks_eq_map_lines, hblocks]
      decide
    | cons b bs =>
      obtain ⟨l, ls, hlines, hl⟩ := (h b (hblocks ▸ List.mem_cons_self)).head
      obtain ⟨rest, hseparate⟩ := exists_separate_blocks hblocks
      rw [hlines, List.cons_append] at hseparate
      rw [hseparate]
      dsimp only
      rw [List.map_cons, unlines_cons, List.head?_append]
      intro hmark
      rcases Option.or_eq_some_iff.1 hmark with hmark | ⟨-, hmark⟩
      · exact hl hmark
      · exact absurd (Option.some.inj hmark) (by decide)
  cases hlist : g.script.toList with
  | nil => rfl
  | cons c cs =>
    rw [dropByteOrderMark]
    intro cs' heq
    apply hhead
    rw [hlist, heq]
    rfl

lemma unplaced_agents_name (o : Outline) :
    o.unplaced.agents.map (·.name) = o.agents.map (·.name) := by
  rw [Outline.unplaced, List.map_map]
  rfl

lemma unplaced_states_agent (o : Outline) :
    o.unplaced.states.map (·.agent) = o.states.map (·.agent) := by
  rw [Outline.unplaced, List.map_map]
  rfl

/-- Reading the canonical script adds what its blocks declare to nothing. -/
lemma grows_reading_script (h : ∀ b ∈ g.declaringBlocks, b.Readable) :
    Grows {} (reading g.script) g.declared := by
  have hlines : scriptLines g.script = g.scriptLines := by
    rw [scriptLines, dropByteOrderMark_script h, toList_script,
      lines_unlines (isLine_of_mem_scriptLines h)]
  obtain ⟨r, hread, hscopes, hgrows⟩ := (stanza_scriptLines h).reads 1 [] {} quiet_nil rfl
  rw [List.append_nil] at hread
  have hreading : reading g.script = r := by
    rw [reading, hlines, hread, linesFrom, finish, hscopes, List.foldl_nil, ← hscopes]
  rwa [hreading]

lemma mem_diagnostics {r : Reading} {d : Diagnostic} :
    d ∈ r.outline.diagnostics ↔ ∃ f ∈ r.findings, f.toDiagnostic = d := by
  rw [Reading.outline, Reading.diagnostics, List.mem_mergeSort, List.mem_map]

/-- The warning that a tool or an event handler is declared again. -/
def IsRepeatedMember (d : Diagnostic) : Prop :=
  ∃ line agent kind name, d = (Finding.mk line (.memberAgain agent kind name)).toDiagnostic

/-- **The canonical script is read back.**  If every block comes back, reading the script declares
what the blocks declare, and finds no error; and it finds nothing but members that are declared
again, provided that the agents have names of their own. -/
theorem unplaced_outline_script (h : ∀ b ∈ g.declaringBlocks, b.Readable) :
    (outline g.script).unplaced = g.declared ∧ (outline g.script).isFaulty = false ∧
      ((g.declared.agents.map (·.name)).Nodup → (g.declared.states.map (·.agent)).Nodup →
        ∀ d ∈ (outline g.script).diagnostics, IsRepeatedMember d) := by
  have hgrows := grows_reading_script h
  have hunplaced : (outline g.script).unplaced = g.declared :=
    hgrows.unplaced.trans (Outline.empty_append _)
  refine ⟨hunplaced, ?_, fun hagents hstates d hd => ?_⟩
  · have hfaultless : (reading g.script).Faultless :=
      hgrows.faultless fun f hf => absurd hf List.not_mem_nil
    rw [Outline.isFaulty, List.any_eq_false]
    intro d hd
    obtain ⟨f, hf, rfl⟩ := mem_diagnostics.1 hd
    have hseverity := hfaultless f hf
    simp [Diagnostic.isError, Finding.toDiagnostic, hseverity]
  · have hclean : (reading g.script).Clean :=
      hgrows.clean fun _ _ f hf => absurd hf List.not_mem_nil
    rw [← hunplaced, unplaced_agents_name] at hagents
    rw [← hunplaced, unplaced_states_agent] at hstates
    obtain ⟨f, hf, rfl⟩ := mem_diagnostics.1 hd
    have hcause := hclean hagents hstates f hf
    obtain ⟨line, cause⟩ := f
    cases cause with
    | memberAgain agent kind name => exact ⟨line, agent, kind, name, rfl⟩
    | agentAgain _ => cases hcause
    | stateAgain _ => cases hcause
    | toolOutside _ => cases hcause
    | eventOutside _ => cases hcause
    | stateOutside => cases hcause
    | strayBrace => cases hcause
    | neverClosed _ _ => cases hcause

end AgentScript
