import AgentScript.Proofs.Graph.Members

/-!
# The blocks of a canonical script are read as what they were written for

A block declares what its sheet says (`Sheet.stanza_lines`), and a type the fields of its state
(`StateContent.stanza_typeBlock`), provided that the sheet or the state is readable.

The clauses of an agent are looked up before its members are read.  The lines that hold them are at
most seven, so they are within reach.  The search may go on through the members and beyond the agent
(its braces need not be in order), so a block is read as it should be only if nothing is learnt from
what follows it; and nothing is learnt from the block itself (`Stanza`).
-/

namespace AgentScript

open Canonical Script Script.Reading Text

variable {text : String} {agent : String} {start : Nat}

/-! ## The state block -/

lemma map_stateLines {fields : List String} (hne : fields ≠ []) :
    (stateLines fields).map String.toList =
      [] :: (([' ', ' '] ++ "state \x7b".toList) ::
        (fields.map (fun f => [' ', ' ', ' ', ' '] ++ f.toList) ++ [closing])) := by
  cases fields with
  | nil => exact absurd rfl hne
  | cons f fields =>
    simp [stateLines, opening, closing]

lemma read?_stateHeader : Header.read? ([' ', ' '] ++ "state \x7b".toList) = some (.state, []) := by
  decide

lemma IsBodyLine.braceless_indented (h : IsBodyLine text) {blanks : List Char}
    (hblanks : ∀ b ∈ blanks, isBlank b = true) :
    Braceless (mask .code (blanks ++ text.toList)) := by
  rw [mask_blanks_append hblanks]
  exact (inert_of_isBlank hblanks).braceless.append h.2

lemma flatMap_stateFields (fields : List String) :
    (fields.map fun f => [' ', ' ', ' ', ' '] ++ f.toList).flatMap
      (fun l => stateFields (mask .code l)) = fields.flatMap stateFieldsIn := by
  have hblanks : ∀ b ∈ [' ', ' ', ' ', ' '], isBlank b = true := by decide
  rw [List.flatMap_map]
  exact congrArg (fields.flatMap ·) (funext fun f => stateFields_indented hblanks f)

lemma readAs_stateLines {fields : List String} (hne : fields ≠ [])
    (h : ∀ f ∈ fields, IsBodyLine f) :
    ReadAs [.agent agent start] ((stateLines fields).map String.toList)
      { states := [⟨agent, fields.flatMap stateFieldsIn, default⟩] } := by
  have hfields := outsideFields_agent agent start []
  have hblock : ReadAs [.agent agent start] (([' ', ' '] ++ "state \x7b".toList) ::
      (fields.map (fun f => [' ', ' ', ' ', ' '] ++ f.toList) ++ [closing]))
      { states := [⟨agent, fields.flatMap stateFieldsIn, default⟩] } := by
    refine readAs_fields (fun n column => .state (some agent) ⟨n, column⟩ [])
      (fun n later r hr => ?_) (fun _ _ => rfl) ?_ line_closing fun n column => ?_
    · obtain ⟨column, hline⟩ := line_header (hfields r hr) read?_stateHeader n later
      exact ⟨column, by rw [hline, openOne, openState_of_agent? (agent?_of_scopes hr)]⟩
    · intro l hl
      obtain ⟨f, hf, rfl⟩ := List.mem_map.1 hl
      exact (h f hf).braceless_indented (by decide)
    · rw [foldl_collect_state, flatMap_stateFields, List.nil_append]
      rfl
  have hall := (readAs_idle hfields idle_empty.1 idle_empty.2).append hblock
  rw [Outline.empty_append] at hall
  rw [map_stateLines hne]
  exact hall

lemma quiet_stateLines {fields : List String} (h : ∀ f ∈ fields, IsBodyLine f)
    {later : List (List Char)} (hlater : Quiet later) :
    Quiet ((stateLines fields).map String.toList ++ later) := by
  by_cases hne : fields = []
  · rw [hne]
    exact hlater
  · have hbody : ∀ l ∈ fields.map (fun f => [' ', ' ', ' ', ' '] ++ f.toList), 0 ≤ netBraces l := by
      intro l hl
      obtain ⟨f, hf, rfl⟩ := List.mem_map.1 hl
      have hblanks : ∀ b ∈ [' ', ' ', ' ', ' '], isBlank b = true := by decide
      have hbraces := netBraces_of_braceless_mask ((h f hf).braceless_indented hblanks)
      exact Int.le_of_eq hbraces.symm
    have hmember : Quiet (([' ', ' '] ++ "state \x7b".toList) ::
        (fields.map (fun f => [' ', ' ', ' ', ' '] ++ f.toList) ++ closing :: later)) :=
      ((quiet_closing hlater).hidden.append hbody).header (by decide) (by decide) (by decide)
    rw [map_stateLines hne]
    simpa using hmember.empty

/-! ## The clauses of an agent -/

namespace Sheet

variable {s : Sheet}

/-- The lines of the model an agent asks for. -/
lemma map_modelLines {a : AgentContent} {model : String} (h : filled a.model = some model) :
    (modelLines a).map String.toList =
      [] :: (([' ', ' '] ++ "model \x7b".toList) ::
        ([(clauseLine "    " "provider" ((filled a.provider).getD defaultProvider)).toList,
          (clauseLine "    " "name" model).toList] ++ [closing])) := by
  simp [modelLines, h, opening, closing]

lemma breaksQuotes_provider (h : s.Readable) :
    Lint.breaksQuotes ((filled s.agent.provider).getD defaultProvider) = false ∧
      (filled s.agent.provider).getD defaultProvider ≠ "" := by
  cases hfilled : filled s.agent.provider with
  | none => exact ⟨by decide, by decide⟩
  | some provider =>
    obtain ⟨hmem, hne⟩ := mem_filled.1 (Option.mem_def.2 hfilled)
    exact ⟨h.provider provider hmem, hne⟩

/-- A clause that may be missing tells nothing if it tells nothing where it stands. -/
lemma idle_clause? {key : String} {value : Option String}
    (h : ∀ text ∈ value, Idle (clauseLine "  " key text).toList) :
    ∀ l ∈ ((value.map (clauseLine "  " key)).toList).map String.toList, Idle l := by
  intro l hl
  rw [List.mem_map] at hl
  obtain ⟨line, hline, rfl⟩ := hl
  rw [Option.mem_toList, Option.map_eq_some_iff] at hline
  obtain ⟨text, htext, rfl⟩ := hline
  exact h text htext

lemma idle_description? (h : s.Readable) :
    ∀ l ∈ (((filled s.agent.description).map (clauseLine "  " "description")).toList).map String.toList,
      Idle l :=
  idle_clause? fun text htext => idle_ownDescription (h.description text (mem_filled.1 htext).1)

lemma idle_version? (h : s.Readable) :
    ∀ l ∈ (((filled s.agent.version).map (clauseLine "  " "version")).toList).map String.toList,
      Idle l :=
  idle_clause? fun text htext => idle_version (h.version text (mem_filled.1 htext).1)

lemma idle_model {model : String} (h : s.Readable) (hmodel : filled s.agent.model = some model) :
    ∀ l ∈ [(clauseLine "    " "provider" ((filled s.agent.provider).getD defaultProvider)).toList,
      (clauseLine "    " "name" model).toList], Idle l := by
  intro l hl
  have hname := h.model model (mem_filled.1 (Option.mem_def.2 hmodel)).1
  rcases List.mem_cons.1 hl with rfl | hl
  · exact idle_provider (breaksQuotes_provider h).1
  · rw [List.mem_singleton.1 hl]
    exact idle_name hname

/-- The block of a model declares nothing where it stands. -/
lemma readAs_modelLines (h : s.Readable) :
    ReadAs [.agent agent start] ((modelLines s.agent).map String.toList) {} := by
  have hfields := outsideFields_agent agent start []
  cases hmodel : filled s.agent.model with
  | none =>
    have hnone : modelLines s.agent = [] := by
      rw [modelLines, hmodel]
    rw [hnone]
    exact readAs_nil _
  | some model =>
    have hhead : [' ', ' '] ++ "model \x7b".toList = [' ', ' '] ++ "model ".toList ++ ['{'] := by
      decide
    have hblock : ReadAs [.agent agent start] (([' ', ' '] ++ "model \x7b".toList) ::
        ([(clauseLine "    " "provider" ((filled s.agent.provider).getD defaultProvider)).toList,
          (clauseLine "    " "name" model).toList] ++ [closing])) {} := by
      refine readAs_member (fun n later r hr => ?_) (idle_model h hmodel)
      have hplain : Plain ([' ', ' '] ++ "model ".toList ++ ['{']) :=
        .of_not_mem (by decide) (by decide)
      rw [hhead, line_opens (hfields r hr) rfl hplain (by decide)]
      exact ⟨by rw [push, hr], grows_of_scopes r _⟩
    have hall := (readAs_idle hfields idle_empty.1 idle_empty.2).append hblock
    rw [Outline.empty_append] at hall
    rw [map_modelLines hmodel]
    exact hall

lemma readAs_ownLines (h : s.Readable) :
    ReadAs [.agent agent start] (s.ownLines.map String.toList) {} := by
  have hfields := outsideFields_agent agent start []
  have hclauses := (readAs_of_idle hfields (idle_description? h)).append
    (readAs_of_idle hfields (idle_version? h))
  have hall := hclauses.append (readAs_modelLines h)
  rw [Outline.append_empty, Outline.append_empty] at hall
  rw [ownLines, List.map_append, List.map_append]
  exact hall

lemma tells_description (h : s.Readable) (known : AgentClauses) :
    Tells ((((filled s.agent.description).map (clauseLine "  " "description")).toList).map String.toList)
      known { known with description := (filled s.agent.description).or known.description } := by
  cases hfilled : filled s.agent.description with
  | none => exact tells_nil known
  | some text =>
    obtain ⟨hmem, hne⟩ := mem_filled.1 (Option.mem_def.2 hfilled)
    have hidle := idle_ownDescription (h.description text hmem)
    have hline : Tells _ known _ := tells_line hidle.1 hidle.netBraces
    rwa [add_description (h.description text hmem) hne] at hline

lemma tells_version (h : s.Readable) (known : AgentClauses) :
    Tells ((((filled s.agent.version).map (clauseLine "  " "version")).toList).map String.toList)
      known { known with version := (filled s.agent.version).or known.version } := by
  cases hfilled : filled s.agent.version with
  | none => exact tells_nil known
  | some text =>
    obtain ⟨hmem, hne⟩ := mem_filled.1 (Option.mem_def.2 hfilled)
    have hidle := idle_version (h.version text hmem)
    have hline : Tells _ known _ := tells_line hidle.1 hidle.netBraces
    rwa [add_version (h.version text hmem) hne] at hline

lemma tells_model (h : s.Readable) {known : AgentClauses} (hknown : known.model = none) :
    Tells ((modelLines s.agent).map String.toList) known
      { known with model := s.agentDecl.model } := by
  cases hmodel : filled s.agent.model with
  | none =>
    have hnone : modelLines s.agent = [] := by
      rw [modelLines, hmodel]
    have hdecl : s.agentDecl.model = known.model := by
      rw [agentDecl, hmodel, hknown]
      rfl
    rw [hnone, hdecl]
    exact tells_nil known
  | some model =>
    obtain ⟨hprovider, hne⟩ := breaksQuotes_provider h
    obtain ⟨hmem, hne'⟩ := mem_filled.1 (Option.mem_def.2 hmodel)
    have hbody : ∀ l ∈ [(clauseLine "    " "provider"
        ((filled s.agent.provider).getD defaultProvider)).toList,
        (clauseLine "    " "name" model).toList], Header.read? l = none ∧ netBraces l = 0 :=
      fun l hl => ⟨(idle_model h hmodel l hl).1, (idle_model h hmodel l hl).netBraces⟩
    have hblock : Tells (([' ', ' '] ++ "model \x7b".toList) :: _) known _ :=
      tells_braced rfl (by decide) (by decide) hbody rfl (by decide) netBraces_closing known
    have hdecl : s.agentDecl.model =
        some ⟨some ((filled s.agent.provider).getD defaultProvider), some model⟩ := by
      rw [agentDecl, hmodel]
      rfl
    have hall := (tells_empty known).append hblock
    rw [List.foldl_cons, List.foldl_cons, List.foldl_nil, add_provider hprovider hne,
      add_name (h.model model hmem) hne'] at hall
    rw [map_modelLines hmodel, hdecl]
    exact hall

/-- The lines of an agent's own clauses tell what the agent declares. -/
lemma tells_ownLines (h : s.Readable) :
    Tells (s.ownLines.map String.toList) {}
      ⟨s.agentDecl.description, s.agentDecl.version, s.agentDecl.model⟩ := by
  have hclauses := (tells_description h {}).append (tells_version h _)
  have hall := hclauses.append (tells_model h rfl)
  rw [ownLines, List.map_append, List.map_append]
  simpa [agentDecl] using hall

lemma length_ownLines_le (s : Sheet) : (s.ownLines.map String.toList).length ≤ agentReach := by
  have hclause : ∀ value : Option String, value.toList.length ≤ 1 := by
    intro value
    cases value <;> simp
  have hmodel : (modelLines s.agent).length ≤ 5 := by
    unfold modelLines
    split <;> simp
  have hdescription := hclause ((filled s.agent.description).map (clauseLine "  " "description"))
  have hversion := hclause ((filled s.agent.version).map (clauseLine "  " "version"))
  rw [List.length_map, ownLines, List.length_append, List.length_append, agentReach]
  omega

/-! ## The members of an agent -/

lemma join_map_tools (agent : String) (tools : List ToolContent) :
    Outline.join (tools.map fun t => { tools := [toolDecl agent t] }) =
      { tools := tools.map (toolDecl agent) } := by
  induction tools with
  | nil => rfl
  | cons t tools ih =>
    rw [List.map_cons, Outline.join_cons, ih]
    rfl

lemma join_map_events (agent : String) (events : List EventContent) :
    Outline.join (events.map fun e => { events := [eventDecl agent e] }) =
      { events := events.map (eventDecl agent) } := by
  induction events with
  | nil => rfl
  | cons e events ih =>
    rw [List.map_cons, Outline.join_cons, ih]
    rfl

lemma readAs_state (h : s.Readable) :
    ReadAs [.agent s.agent.label start] ((stateLines (s.fields.getD [])).map String.toList)
      { states := s.stateDecls } := by
  cases hfields : s.fields.getD [] with
  | nil =>
    rw [stateDecls, hfields]
    exact readAs_nil _
  | cons f fields =>
    have hall : ∀ f' ∈ f :: fields, IsBodyLine f' := fun f' hf' => h.fields f' (hfields ▸ hf')
    rw [stateDecls, hfields]
    exact readAs_stateLines (List.cons_ne_nil f fields) hall

lemma readAs_memberLines (h : s.Readable) :
    ReadAs [.agent s.agent.label start] (s.memberLines.map String.toList)
      { s.declared with agents := [] } := by
  have htools : ReadAs [.agent s.agent.label start]
      (s.tools.flatMap fun t => (toolLines t).map String.toList) _ :=
    ReadAs.flatMap fun t ht => readAs_toolLines (h.tools t ht)
  have hevents : ReadAs [.agent s.agent.label start]
      (s.events.flatMap fun e => (eventLines e).map String.toList) _ :=
    ReadAs.flatMap fun e he => readAs_eventLines (h.events e he)
  rw [join_map_tools] at htools
  rw [join_map_events] at hevents
  have hall := ((readAs_state h).append htools).append hevents
  rw [memberLines, List.map_append, List.map_append, List.map_flatMap, List.map_flatMap]
  simpa [Outline.append_eq, declared] using hall

variable {later : List (List Char)}

/-- The search learns nothing from the members of an agent. -/
lemma quiet_memberLines (h : s.Readable) (hlater : Quiet later) :
    Quiet (s.memberLines.map String.toList ++ later) := by
  have hevents : Quiet ((s.events.flatMap fun e => (eventLines e).map String.toList) ++ later) :=
    hlater.flatMap fun e he _ => quiet_eventLines (h.events e he)
  have htools : Quiet ((s.tools.flatMap fun t => (toolLines t).map String.toList) ++ _) :=
    hevents.flatMap fun t ht _ => quiet_toolLines (h.tools t ht)
  have hall := quiet_stateLines h.fields htools
  rw [memberLines, List.map_append, List.map_append, List.map_flatMap, List.map_flatMap,
    List.append_assoc, List.append_assoc]
  exact hall

/-- Within a member of another agent the search learns nothing from an agent's own lines. -/
lemma hidden_ownLines (h : s.Readable) (hlater : Quiet later) :
    Hidden (s.ownLines.map String.toList ++ later) := by
  have hmodel : Hidden ((modelLines s.agent).map String.toList ++ later) := by
    cases hmodel : filled s.agent.model with
    | none =>
      have hnone : modelLines s.agent = [] := by
        rw [modelLines, hmodel]
      rw [hnone]
      exact hlater.hidden
    | some model =>
      have hbody := (quiet_closing hlater).hidden.append fun l hl =>
        Int.le_of_eq (idle_model h hmodel l hl).netBraces.symm
      have hopening : 0 ≤ netBraces ([' ', ' '] ++ "model \x7b".toList) := by decide
      have hempty : 0 ≤ netBraces [] := Int.le_refl 0
      have hblock := (hbody.cons hopening).cons hempty
      rw [map_modelLines hmodel]
      simpa using hblock
  have hversion := hmodel.append fun l hl => Int.le_of_eq (idle_version? h l hl).netBraces.symm
  have hdescription := hversion.append fun l hl =>
    Int.le_of_eq (idle_description? h l hl).netBraces.symm
  rw [ownLines, List.map_append, List.map_append, List.append_assoc, List.append_assoc]
  exact hdescription

end Sheet

/-! ## Stanzas -/

/-- The lines of a block: where nothing else is open they declare this, if the search for clauses
learns nothing from what follows, and it learns nothing from the block either. -/
structure Stanza (ls : List (List Char)) (added : Outline) : Prop where
  reads : ∀ n later r, Quiet later → r.scopes = [] → ∃ r', linesFrom n (ls ++ later) r =
    linesFrom (n + ls.length) later r' ∧ r'.scopes = [] ∧ Grows r r' added
  quiet : ∀ later, Quiet later → Quiet (ls ++ later)

lemma stanza_empty : Stanza [[]] {} where
  reads n later r _ := readAs_idle outsideFields_nil idle_empty.1 idle_empty.2 n later r
  quiet _ hlater := hlater.empty

lemma Stanza.append {ls ls' : List (List Char)} {o o' : Outline} (h : Stanza ls o)
    (h' : Stanza ls' o') : Stanza (ls ++ ls') (o ++ o') := by
  refine ⟨fun n later r hlater hr => ?_, fun later hlater => ?_⟩
  · obtain ⟨r₁, hlines, hscopes, hgrows⟩ := h.reads n (ls' ++ later) r (h'.quiet later hlater) hr
    obtain ⟨r₂, hlines', hscopes', hgrows'⟩ := h'.reads (n + ls.length) later r₁ hlater hscopes
    refine ⟨r₂, ?_, hscopes', hgrows.trans hgrows'⟩
    rw [List.append_assoc, hlines, hlines', List.length_append, Nat.add_assoc]
  · rw [List.append_assoc]
    exact h.quiet _ (h'.quiet later hlater)

lemma netBraces_named {word name : String} (hword : Inert word.toList)
    (hname : isName name.toList = true) :
    netBraces (word.toList ++ ' ' :: (name.toList ++ [' ', '{'])) = 1 := by
  have hblank : Inert [' '] := by decide
  have hline := netBraces_opening ((hword.append hblank).append (inert_of_isName hname))
  simpa using hline

/-! ## The block of an agent -/

namespace Sheet

variable {s : Sheet} {later : List (List Char)}

lemma line_end (r : Reading) (n : Nat) (later : List (List Char)) :
    r.line n ['}'] later = r.close n := by
  have hblanks : ∀ b ∈ ([] : List Char), isBlank b = true := fun _ h => absurd h List.not_mem_nil
  exact line_closes hblanks

lemma quiet_end (hlater : Quiet later) : Quiet (['}'] :: later) :=
  hlater.quoteless rfl (by decide) (by decide)

lemma map_lines (s : Sheet) (later : List (List Char)) : s.lines.map String.toList ++ later =
    ("agent".toList ++ ' ' :: (s.agent.label.toList ++ [' ', '{'])) ::
      (s.ownLines.map String.toList ++ (s.memberLines.map String.toList ++ ['}'] :: later)) := by
  rw [lines, List.map_cons, toList_opening]
  simp

/-- The search learns nothing from another agent. -/
lemma quiet_lines (h : s.Readable) (hlater : Quiet later) :
    Quiet (s.lines.map String.toList ++ later) := by
  have hagent : Header.startsAgent ("agent".toList ++ ' ' :: (s.agent.label.toList ++ [' ', '{'])) =
      true := by
    rw [Header.startsAgent, Header.readAgent_written h.isName]
    rfl
  have hbraces := netBraces_named (show Inert "agent".toList by decide) h.isName
  have hbody := hidden_ownLines h (quiet_memberLines h (quiet_end hlater))
  rw [map_lines]
  exact hbody.agent hagent (by omega)

/-- The block of an agent declares what its sheet says. -/
theorem stanza_lines (h : s.Readable) : Stanza (s.lines.map String.toList) s.declared := by
  refine ⟨fun n later r hlater hr => ?_, fun later => quiet_lines h⟩
  have hlist := map_lines s later
  have hread := Header.read?_agent h.isName
  obtain ⟨column, hline⟩ := line_header (outsideFields_nil r hr) hread n
    (s.ownLines.map String.toList ++ (s.memberLines.map String.toList ++ ['}'] :: later))
  have hclauses := agentClauses_of_tells (tells_ownLines h) (length_ownLines_le s)
    (quiet_memberLines h (quiet_end hlater))
  rw [openOne, hclauses] at hline
  dsimp only at hline
  -- The agent is opened, its lines are read, and it is closed.
  have hopened := grows_openAgent r ⟨n, column⟩ s.agent.label
    ⟨s.agentDecl.description, s.agentDecl.version, s.agentDecl.model⟩
  have hscopes := scopes_openAgent r ⟨n, column⟩ s.agent.label
    ⟨s.agentDecl.description, s.agentDecl.version, s.agentDecl.model⟩
  rw [hr] at hscopes
  obtain ⟨r', hlines, hscopes', hgrows⟩ := ((readAs_ownLines h).append (readAs_memberLines h))
    (n + 1) (['}'] :: later) _ hscopes
  have hlength : n + (s.lines.map String.toList).length = n + 1 +
      (s.ownLines.map String.toList ++ s.memberLines.map String.toList).length + 1 := by
    simp [lines]
    omega
  refine ⟨r'.close (n + 1 +
    (s.ownLines.map String.toList ++ s.memberLines.map String.toList).length), ?_,
    scopes_close hscopes' _, ?_⟩
  · rw [hlist, hlength, linesFrom_cons, hline, ← List.append_assoc, hlines, linesFrom_cons, line_end]
  · have hall := (hopened.trans hgrows).trans (grows_close hscopes' (n + 1 +
      (s.ownLines.map String.toList ++ s.memberLines.map String.toList).length))
    have hagent : recorded (.agent s.agent.label n) = {} := rfl
    rw [hagent, Outline.append_empty, Outline.empty_append] at hall
    simpa [Outline.append_eq, declared, agentDecl] using hall

end Sheet

/-! ## Types -/

namespace StateContent

variable {s : StateContent}

lemma flatMap_typeFields (fields : List String) :
    (fields.map fun f => [' ', ' '] ++ (required f).toList).flatMap
      (fun l => typeFields (mask .code l)) = fields.flatMap fun f => typeFieldsIn (required f) := by
  have hblanks : ∀ b ∈ [' ', ' '], isBlank b = true := by decide
  rw [List.flatMap_map]
  exact congrArg (fields.flatMap ·) (funext fun f => typeFields_indented hblanks (required f))

lemma map_typeBlock? {f : String} {fields : List String} (hfields : s.fields.getD [] = f :: fields) :
    (typeBlock? s).map (List.map String.toList) =
      some (("type".toList ++ ' ' :: (s.typeName.toList ++ [' ', '{'])) ::
        ((f :: fields).map (fun f => [' ', ' '] ++ (required f).toList) ++ [['}']])) := by
  rw [typeBlock?, hfields]
  simp [typeName, opening]

/-- The block of a type declares its fields. -/
theorem stanza_typeBlock (h : s.Readable) {block : List String}
    (hblock : typeBlock? s = some block) : Stanza (block.map String.toList) s.declared := by
  cases hfields : s.fields.getD [] with
  | nil =>
    rw [typeBlock?, hfields] at hblock
    cases hblock
  | cons f fields =>
    have hbody : ∀ l ∈ (f :: fields).map (fun f => [' ', ' '] ++ (required f).toList),
        Braceless (mask .code l) := by
      intro l hl
      obtain ⟨f', hf', rfl⟩ := List.mem_map.1 hl
      exact (h.fields f' (hfields ▸ hf')).braceless_indented (by decide)
    have hlines := map_typeBlock? hfields
    rw [hblock, Option.map_some, Option.some.injEq] at hlines
    rw [hlines]
    refine ⟨fun n later r _ => readAs_fields (fun n column => .type s.typeName ⟨n, column⟩ [])
      (fun n later r hr => ?_) (fun _ _ => rfl) hbody Sheet.line_end (fun n column => ?_) n later r,
      fun later hlater => ?_⟩
    · obtain ⟨column, hline⟩ := line_header (outsideFields_nil r hr) (Header.read?_type h.isName) n
        later
      exact ⟨column, by rw [hline, openOne]⟩
    · rw [foldl_collect_type, flatMap_typeFields, List.nil_append, declared, hfields]
      rfl
    · have hstarts : Header.starts ("type".toList ++ ' ' :: (s.typeName.toList ++ [' ', '{'])) =
          true := by
        rw [Header.starts, Header.read?_type h.isName]
        rfl
      have hbraces := netBraces_named (show Inert "type".toList by decide) h.isName
      have hhidden := (Sheet.quiet_end hlater).hidden.append fun l hl =>
        Int.le_of_eq (netBraces_of_braceless_mask (hbody l hl)).symm
      have hblock := hhidden.header hstarts rfl (by omega)
      simpa using hblock

end StateContent

end AgentScript
