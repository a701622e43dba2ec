import AgentScript.Proofs.Script.Reach

/-!
# Reading equivalent scripts

Blank lines and the blanks around a line shift places, and with them the lines of findings, but what
is declared stays.  `Reading.shown` leaves out of a reading its places and findings, and on request
what was looked up as well.  Every step of reading depends on a reading only as far as it is shown
(`Reading.shown_line`), a blank line is no step at all, and a lookahead enters only where it is
shown.  So equivalent scripts declare the same, and with the same clauses where their lookaheads
read the same lines (`shown_outline_of_equivalent`).
-/

namespace AgentScript

open Script Text

/-- The declaration without its place, and without its clauses unless they are to be shown. -/
def AgentDecl.shown (look : Bool) (d : AgentDecl) : AgentDecl :=
  if look then d.unplaced else ⟨d.name, none, none, none, default⟩

/-- The declaration without its place, and without its description unless that is to be shown. -/
def ToolDecl.shown (look : Bool) (d : ToolDecl) : ToolDecl :=
  if look then d.unplaced else { d with description := none, place := default }

/-- What an outline declares, wherever it was declared, and with or without what was looked up. -/
def Outline.shown (look : Bool) (o : Outline) : Outline where
  agents := o.agents.map (·.shown look)
  tools := o.tools.map (·.shown look)
  events := o.events.map EventDecl.unplaced
  states := o.states.map StateDecl.unplaced
  types := o.types.map TypeDecl.unplaced

lemma Outline.shown_true (o : Outline) : o.shown true = o.unplaced := by
  have hagent : AgentDecl.shown true = AgentDecl.unplaced := funext fun _ => rfl
  have htool : ToolDecl.shown true = ToolDecl.unplaced := funext fun _ => rfl
  rw [shown, hagent, htool, unplaced]

namespace Script

/-- The scope without its place. -/
def Scope.unplaced : Scope → Scope
  | .agent name _ => .agent name 0
  | .state owner _ fields => .state owner default fields
  | .type name _ fields => .type name default fields
  | .block _ => .block 0

namespace Reading

/-- What counts of a reading for the declarations that are still to come. -/
def shown (look : Bool) (r : Reading) : Reading where
  scopes := r.scopes.map Scope.unplaced
  agents := r.agents.map (·.shown look)
  tools := r.tools.map (·.shown look)
  events := r.events.map EventDecl.unplaced
  states := r.states.map StateDecl.unplaced
  types := r.types.map TypeDecl.unplaced

variable {look : Bool} {r r' : Reading} {n n' : Nat}

lemma shown_report (r : Reading) (line : Nat) (cause : Cause) :
    (r.report line cause).shown look = r.shown look := rfl

lemma shown_push (r : Reading) (scope : Scope) :
    (r.push scope).shown look = (r.shown look).push scope.unplaced := rfl

lemma agent?_shown (look : Bool) (r : Reading) : (r.shown look).agent? = r.agent? := by
  have hname : ∀ scope : Scope, scope.unplaced.agentName? = scope.agentName? := by
    intro scope
    cases scope <;> rfl
  rw [agent?, agent?, shown, innermostAgent?, innermostAgent?, List.findSome?_map]
  exact congrArg (r.scopes.findSome? ·) (funext hname)

lemma inFields_shown (look : Bool) (r : Reading) : (r.shown look).inFields = r.inFields := by
  rw [inFields, inFields, shown]
  cases r.scopes with
  | nil => rfl
  | cons scope outer => cases scope <;> rfl

lemma agent?_eq_of_shown (h : r.shown look = r'.shown look) : r.agent? = r'.agent? := by
  rw [← agent?_shown look r, h, agent?_shown]

lemma inFields_eq_of_shown (h : r.shown look = r'.shown look) : r.inFields = r'.inFields := by
  rw [← inFields_shown look r, h, inFields_shown]

/-! ## Opening -/

lemma shown_openAgent (r : Reading) (place : Place) (name : String) (clauses : AgentClauses) :
    (r.openAgent place name clauses).shown look =
      { r.shown look with
        agents := (r.shown look).agents ++
          [AgentDecl.shown look ⟨name, clauses.description, clauses.version, clauses.model, default⟩]
        scopes := .agent name 0 :: (r.shown look).scopes } := by
  have hplace : ∀ place : Place, AgentDecl.shown look
      ⟨name, clauses.description, clauses.version, clauses.model, place⟩ =
      AgentDecl.shown look
        ⟨name, clauses.description, clauses.version, clauses.model, default⟩ := by
    intro place
    cases look <;> rfl
  unfold openAgent
  split <;> simp [shown, report, Scope.unplaced, hplace]

lemma shown_openTool (r : Reading) (place : Place) (name params : String)
    (returns description : Option String) :
    (r.openTool place name params returns description).shown look =
      match r.agent? with
      | none => (r.shown look).push (.block 0)
      | some agent =>
        { r.shown look with
          tools := (r.shown look).tools ++
            [ToolDecl.shown look ⟨name, params, returns, description, agent, default⟩]
          scopes := .block 0 :: (r.shown look).scopes } := by
  rw [openTool]
  cases r.agent? with
  | none => rfl
  | some agent =>
    have hplace : ∀ place : Place,
        ToolDecl.shown look ⟨name, params, returns, description, agent, place⟩ =
        ToolDecl.shown look ⟨name, params, returns, description, agent, default⟩ := by
      intro place
      cases look <;> rfl
    dsimp only
    split <;> simp [shown, report, Scope.unplaced, hplace]

lemma shown_openEvent (r : Reading) (place : Place) (name : String) :
    (r.openEvent place name).shown look =
      match r.agent? with
      | none => (r.shown look).push (.block 0)
      | some agent =>
        { r.shown look with
          events := (r.shown look).events ++ [⟨name, .ofName name, agent, default⟩]
          scopes := .block 0 :: (r.shown look).scopes } := by
  rw [openEvent]
  cases r.agent? with
  | none => rfl
  | some agent =>
    dsimp only
    split <;> simp [shown, report, Scope.unplaced, EventDecl.unplaced]

lemma shown_openState (r : Reading) (place : Place) :
    (r.openState place).shown look = (r.shown look).push (.state r.agent? default []) := by
  simp only [openState]
  split <;> rfl

/-- Two openings that say the same, as far as lookaheads are shown. -/
def Alike (look : Bool) (later later' : List (List Char)) (o o' : Opening) : Prop :=
  o.header = o'.header ∧ trim o.rest = trim o'.rest ∧
    (look = true → codeLinesOf (o.reads later) = codeLinesOf (o'.reads later'))

variable {later later' : List (List Char)}

lemma shown_openOne (h : r.shown look = r'.shown look) {o o' : Opening}
    (ho : Alike look later later' o o') :
    (r.openOne n later o).shown look = (r'.openOne n' later' o').shown look := by
  obtain ⟨hheader, hrest, hreads⟩ := ho
  have hagent := agent?_eq_of_shown h
  rw [openOne, openOne, ← hheader]
  cases hkind : o.header with
  | agent name =>
    dsimp only
    rw [shown_openAgent, shown_openAgent, h]
    cases look with
    | false => rfl
    | true =>
      have hlines := hreads rfl
      rw [Opening.reads, Opening.reads, ← hheader, hkind] at hlines
      rw [agentClauses_eq, agentClauses_eq, hlines]
  | tool name params returns =>
    dsimp only
    rw [shown_openTool, shown_openTool, h, hagent]
    cases look with
    | false => rfl
    | true =>
      rw [toolDescription_eq hkind, toolDescription_eq (hheader ▸ hkind), hrest, hreads rfl]
  | event name =>
    dsimp only
    rw [shown_openEvent, shown_openEvent, h, hagent]
  | state =>
    dsimp only
    rw [shown_openState, shown_openState, h, hagent]
  | type name =>
    dsimp only
    rw [shown_push, shown_push, h]
    rfl

/-! ## Closing and body text -/

/-- What closing a scope records, as far as it is shown. -/
def recordShown (r : Reading) : Scope → Reading
  | .state (some agent) _ fields => { r with states := r.states ++ [⟨agent, fields, default⟩] }
  | .type name _ fields => { r with types := r.types ++ [⟨name, fields, default⟩] }
  | _ => r

lemma shown_record (r : Reading) (line : Nat) (scope : Scope) :
    (r.record line scope).shown look = (r.shown look).recordShown scope.unplaced := by
  match scope with
  | .agent _ _ => rfl
  | .block _ => rfl
  | .state none _ _ => rfl
  | .type _ _ _ => simp [record, recordShown, shown, Scope.unplaced, TypeDecl.unplaced]
  | .state (some agent) _ _ =>
    rw [record]
    split <;> simp [recordShown, shown, report, Scope.unplaced, StateDecl.unplaced]

lemma shown_close (r : Reading) (line : Nat) :
    (r.close line).shown look =
      match (r.shown look).scopes with
      | [] => r.shown look
      | scope :: outer => { r.shown look with scopes := outer }.recordShown scope := by
  have hscopes : (r.shown look).scopes = r.scopes.map Scope.unplaced := rfl
  rw [close, hscopes]
  cases r.scopes with
  | nil => rfl
  | cons scope outer => exact shown_record _ _ _

lemma shown_collect (r : Reading) (segment : List Char) :
    (r.collect segment).shown look = (r.shown look).collect segment := by
  have hscope : ∀ scope : Scope,
      (scope.collect segment).unplaced = scope.unplaced.collect segment := by
    intro scope
    cases scope <;> rfl
  have hscopes : (r.shown look).scopes = r.scopes.map Scope.unplaced := rfl
  rw [collect, collect, hscopes]
  cases r.scopes with
  | nil => rfl
  | cons scope outer =>
    simp only [List.map_cons, ← hscope]
    rfl

lemma shown_body (h : r.shown look = r'.shown look) (segment cs : List Char) :
    (body n segment cs r).shown look = (body n' segment cs r').shown look := by
  have hcollect : (r.collect segment).shown look = (r'.collect segment).shown look := by
    rw [shown_collect, shown_collect, h]
  induction cs generalizing r r' segment with
  | nil => exact hcollect
  | cons c cs ih =>
    rw [body, body]
    split
    · refine ih (r := (r.collect segment).push (.block n)) ?_ [] ?_
      · rw [shown_push, shown_push, hcollect]
        rfl
      · rw [shown_collect, shown_collect, shown_push, shown_push, hcollect]
        rfl
    · split
      · refine ih (r := (r.collect segment).close n) ?_ [] ?_
        · rw [shown_close, shown_close, hcollect]
        · rw [shown_collect, shown_collect, shown_close, shown_close, hcollect]
      · apply ih h (segment ++ [c])
        rw [shown_collect, shown_collect, h]

/-! ## Lines -/

/-- Lines that are the same when they are trimmed open the same. -/
lemma alike_openings {t t' : List Char} (ht : trim t = trim t')
    (hlook : look = true → (openings t).map (fun o => codeLinesOf (o.reads later)) =
      (openings t').map fun o => codeLinesOf (o.reads later')) :
    List.Forall₂ (Alike look later later') (openings t) (openings t') := by
  have hsaid := forall₂_openings ht
  cases look with
  | false =>
    apply hsaid.imp
    intro o o' hsame
    rw [Prod.mk.injEq] at hsame
    exact ⟨hsame.1, hsame.2, fun h => by cases h⟩
  | true =>
    refine List.Forall₂.mp (fun o o' hsame hreads => ?_) hsaid (forall₂_iff_map_eq.2 (hlook rfl))
    rw [Prod.mk.injEq] at hsame
    exact ⟨hsame.1, hsame.2, fun _ => hreads⟩

lemma shown_foldl_openOne (h : r.shown look = r'.shown look) {os os' : List Opening}
    (hos : List.Forall₂ (Alike look later later') os os') :
    (os.foldl (openOne n later) r).shown look = (os'.foldl (openOne n' later') r').shown look := by
  induction hos generalizing r r' with
  | nil => exact h
  | cons ho _ ih => exact ih (shown_openOne h ho)

/-- Lines that are the same when they are trimmed do the same, as far as it is shown. -/
theorem shown_line (h : r.shown look = r'.shown look) {t t' : List Char} (ht : trim t = trim t')
    (hlook : look = true → (openings t).map (fun o => codeLinesOf (o.reads later)) =
      (openings t').map fun o => codeLinesOf (o.reads later')) :
    (r.line n t later).shown look = (r'.line n' t' later').shown look := by
  rw [line, line, ← inFields_eq_of_shown h]
  by_cases hfields : r.inFields = true
  · have hmask : trim (mask .code t) = trim (mask .code t') := by
      rw [← trim_mask_trim t, ht, trim_mask_trim]
    rw [if_pos hfields, if_pos hfields, bodyText_nil, bodyText_nil, ← body_trim (mask .code t),
      ← body_trim (mask .code t'), hmask]
    exact shown_body h [] _
  · have hbody : trim (bodyText t (openings t)) = trim (bodyText t' (openings t')) := by
      rw [← trim_bodyText_trim t, ht, trim_bodyText_trim]
    rw [if_neg hfields, if_neg hfields, ← body_trim (bodyText t _), ← body_trim (bodyText t' _),
      hbody]
    exact shown_body (shown_foldl_openOne h (alike_openings ht hlook)) [] _

/-- A blank line is passed over. -/
lemma line_blank {t : List Char} (ht : trim t = []) : r.line n t later = r := by
  have hblank := trim_eq_nil_iff.1 ht
  have hread : Header.read? t = none := by
    have happend := Header.read?_blanks_append hblank []
    rw [List.append_nil] at happend
    exact happend
  have hmask : mask .code t = t := mask_of_plain (inert_of_isBlank hblank).plain
  rw [line_of_not_opened (.inr hread), hmask,
    body_of_braceless (inert_of_isBlank hblank).braceless, List.nil_append, collect_blank hblank]

lemma linesFrom_append_blank {before : List (List Char)} (h : ∀ l ∈ before, trim l = [])
    (after : List (List Char)) :
    linesFrom n (before ++ after) r = linesFrom (n + before.length) after r := by
  induction before generalizing n with
  | nil => rfl
  | cons l before ih =>
    rw [List.cons_append, linesFrom_cons, line_blank (h l List.mem_cons_self),
      ih fun l' hl' => h l' (List.mem_cons_of_mem l hl'), List.length_cons, Nat.add_right_comm,
      Nat.add_assoc]

end Reading

/-- The first line that holds more than blanks. -/
lemma exists_of_codeLinesOf_cons {ls codes : List (List Char)} {code : List Char}
    (h : codeLinesOf ls = code :: codes) :
    ∃ before l after, ls = before ++ l :: after ∧ (∀ l' ∈ before, trim l' = []) ∧ trim l = code ∧
      codeLinesOf after = codes ∧
      lookaheads ls = (openings l).map (fun o => codeLinesOf (o.reads after)) :: lookaheads after := by
  induction ls with
  | nil => cases h
  | cons l ls ih =>
    by_cases hl : trim l = []
    · rw [codeLinesOf_cons_blank hl] at h
      obtain ⟨before, l', after, rfl, hbefore, hcode, hcodes, hlook⟩ := ih h
      refine ⟨l :: before, l', after, rfl, List.forall_mem_cons.2 ⟨hl, hbefore⟩, hcode, hcodes, ?_⟩
      rw [lookaheads, if_pos hl, hlook]
    · rw [codeLinesOf_cons hl, List.cons.injEq] at h
      refine ⟨[], l, ls, rfl, fun _ h => absurd h List.not_mem_nil, h.1, h.2, ?_⟩
      rw [lookaheads, if_neg hl]

lemma forall_blank_of_codeLinesOf {ls : List (List Char)} (h : codeLinesOf ls = []) :
    ∀ l ∈ ls, trim l = [] := by
  intro l hl
  by_contra hne
  have hmem : trim l ∈ codeLinesOf ls := by
    refine List.mem_filter.2 ⟨List.mem_map_of_mem hl, ?_⟩
    rw [Bool.not_eq_true', List.isEmpty_eq_false_iff]
    exact hne
  rw [h] at hmem
  cases hmem

namespace Reading

variable {look : Bool} {r r' : Reading} {n n' : Nat}

/-- Lines that are the same but for blanks declare the same. -/
theorem shown_linesFrom {ls ls' : List (List Char)} (hcodes : codeLinesOf ls = codeLinesOf ls')
    (hlook : look = true → lookaheads ls = lookaheads ls') (h : r.shown look = r'.shown look) :
    (linesFrom n ls r).shown look = (linesFrom n' ls' r').shown look := by
  induction ls generalizing ls' n n' r r' with
  | nil =>
    have hblank := linesFrom_append_blank (n := n') (r := r')
      (forall_blank_of_codeLinesOf hcodes.symm) []
    rw [List.append_nil] at hblank
    rw [hblank]
    exact h
  | cons l ls ih =>
    rw [linesFrom_cons]
    by_cases hl : trim l = []
    · rw [line_blank hl]
      refine ih ?_ (fun hshow => ?_) h
      · rw [← hcodes, codeLinesOf_cons_blank hl]
      · rw [← hlook hshow, lookaheads, if_pos hl]
    · rw [codeLinesOf_cons hl] at hcodes
      obtain ⟨before, l', after, rfl, hbefore, hsame, hafter, hreads⟩ :=
        exists_of_codeLinesOf_cons hcodes.symm
      rw [hreads, lookaheads, if_neg hl, List.cons.injEq] at hlook
      rw [linesFrom_append_blank hbefore, linesFrom_cons]
      exact ih hafter.symm (fun hshow => (hlook hshow).2)
        (shown_line h hsame.symm fun hshow => (hlook hshow).1)

lemma shown_finish (r : Reading) (lineCount : Nat) :
    (r.finish lineCount).shown look =
      (r.shown look).scopes.foldl recordShown { r.shown look with scopes := [] } := by
  have hscopes : (r.shown look).scopes = r.scopes.map Scope.unplaced := rfl
  rw [finish, hscopes, List.foldl_map]
  refine (List.foldl_hom (shown look) fun r scope => ?_).symm
  rw [shown_record, shown_report]

end Reading

lemma shown_outline (look : Bool) (r : Reading) :
    r.outline.shown look =
      ⟨(r.shown look).agents, (r.shown look).tools, (r.shown look).events, (r.shown look).states,
        (r.shown look).types, []⟩ := rfl

/-! ## Equivalent scripts -/

/-- Whether a script begins with a byte order mark. -/
def isMarked (text : String) : Bool := text.toList.head? == some '\uFEFF'

lemma codeLinesOf_headD (ls : List (List Char)) :
    codeLinesOf (ls.headD [] :: ls.tail) = codeLinesOf ls := by
  cases ls <;> rfl

lemma trim_cons {c : Char} (hc : isBlank c = false) (cs : List Char) :
    trim (c :: cs) = c :: dropTrailingBlanks cs := by
  have hlast : dropBlanks [c] = [c] := dropBlanks_of_not_isBlank hc []
  have hdrop : dropBlanks (cs.reverse ++ [c]) = dropBlanks cs.reverse ++ [c] := by
    obtain ⟨blanks, hblanks, heq⟩ := exists_dropBlanks cs.reverse
    cases hrest : dropBlanks cs.reverse with
    | nil =>
      rw [hrest, List.append_nil] at heq
      rw [heq, dropBlanks_append hblanks, hlast, List.nil_append]
    | cons d ds =>
      have hd : isBlank d = false := head?_dropBlanks (by rw [hrest, List.head?_cons])
      rw [heq, hrest, List.append_assoc, dropBlanks_append hblanks, List.cons_append,
        dropBlanks_of_not_isBlank hd]
  rw [trim, dropBlanks_of_not_isBlank hc, dropTrailingBlanks, List.reverse_cons, hdrop,
    List.reverse_append, dropTrailingBlanks]
  rfl

/-- Texts that are equivalent behind the same character are equivalent without it. -/
lemma codeLinesOf_of_cons {c : Char} (hc : isBlank c = false) {cs cs' : List Char}
    (h : codeLinesOf (lines (c :: cs)) = codeLinesOf (lines (c :: cs'))) :
    codeLinesOf (lines cs) = codeLinesOf (lines cs') := by
  have hnew : c ≠ '\n' := by
    rintro rfl
    cases hc
  have hret : c ≠ '\r' := by
    rintro rfl
    cases hc
  have hne : ∀ ds : List Char, trim (c :: ds) ≠ [] := by
    intro ds
    rw [trim_cons hc]
    exact List.cons_ne_nil _ _
  have htrailing : ∀ ds : List Char, trim (dropTrailingBlanks ds) = trim ds := by
    intro ds
    obtain ⟨blanks, hblanks, heq⟩ := exists_dropTrailingBlanks ds
    calc trim (dropTrailingBlanks ds) = trim (dropTrailingBlanks ds ++ blanks) :=
          (trim_append_blanks hblanks _).symm
      _ = trim ds := by rw [← heq]
  have hret' : ∀ {ds : List Char}, c = '\r' → ds.head? ≠ some '\n' := fun heq => absurd heq hret
  rw [lines_cons hnew hret', lines_cons hnew hret', codeLinesOf_cons (hne _),
    codeLinesOf_cons (hne _), trim_cons hc, trim_cons hc, List.cons.injEq, List.cons.injEq] at h
  obtain ⟨⟨-, hfirst⟩, hothers⟩ := h
  have htrim : trim ((lines cs).headD []) = trim ((lines cs').headD []) := by
    rw [← htrailing, hfirst, htrailing]
  rw [← codeLinesOf_headD (lines cs), ← codeLinesOf_headD (lines cs')]
  by_cases hblank : trim ((lines cs).headD []) = []
  · rw [codeLinesOf_cons_blank hblank, codeLinesOf_cons_blank (htrim ▸ hblank), hothers]
  · rw [codeLinesOf_cons hblank, codeLinesOf_cons (htrim ▸ hblank), htrim, hothers]

lemma toList_of_isMarked {text : String} (h : isMarked text = true) :
    text.toList = '\uFEFF' :: dropByteOrderMark text.toList := by
  rw [isMarked, beq_iff_eq] at h
  cases hlist : text.toList with
  | nil =>
    rw [hlist] at h
    cases h
  | cons c cs =>
    rw [hlist, List.head?_cons, Option.some.injEq] at h
    rw [h]
    rfl

lemma dropByteOrderMark_of_not_isMarked {text : String} (h : isMarked text = false) :
    dropByteOrderMark text.toList = text.toList := by
  rw [dropByteOrderMark.eq_def]
  split
  next cs heq =>
    rw [isMarked, heq] at h
    cases h
  next => rfl

/-- Of equivalent scripts, the lines that are read are equivalent, if both or neither begin with a
byte order mark. -/
lemma codeLinesOf_scriptLines {a b : String} (h : equivalent a b = true)
    (hmark : isMarked a = isMarked b) :
    codeLinesOf (scriptLines a) = codeLinesOf (scriptLines b) := by
  have hcodes : codeLinesOf (lines a.toList) = codeLinesOf (lines b.toList) := beq_iff_eq.1 h
  rw [scriptLines, scriptLines]
  cases hmarked : isMarked a with
  | false =>
    rw [hmarked] at hmark
    rw [dropByteOrderMark_of_not_isMarked hmarked, dropByteOrderMark_of_not_isMarked hmark.symm,
      hcodes]
  | true =>
    rw [hmarked] at hmark
    rw [toList_of_isMarked hmarked, toList_of_isMarked hmark.symm] at hcodes
    exact codeLinesOf_of_cons (by decide) hcodes

/-- **Equivalent scripts declare the same**, where both or neither begin with a byte order mark; with
the same clauses if their lookaheads read the same lines. -/
theorem shown_outline_of_equivalent {look : Bool} {a b : String} (h : equivalent a b = true)
    (hmark : isMarked a = isMarked b)
    (hlook : look = true → lookaheads (scriptLines a) = lookaheads (scriptLines b)) :
    (outline a).shown look = (outline b).shown look := by
  have hlines : (Reading.linesFrom 1 (scriptLines a) {}).shown look =
      (Reading.linesFrom 1 (scriptLines b) {}).shown look :=
    Reading.shown_linesFrom (codeLinesOf_scriptLines h hmark) hlook rfl
  have hreading : (reading a).shown look = (reading b).shown look := by
    rw [reading, reading, Reading.shown_finish, Reading.shown_finish, hlines]
  rw [outline, outline, shown_outline, shown_outline, hreading]

end Script

end AgentScript
