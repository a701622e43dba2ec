import AgentScript.Proofs.Script.Composition
import AgentScript.Proofs.Script.Meeting
import AgentScript.Proofs.Script.Reporting

/-!
# Completing a script

At the end of a text the reader closes what is still open by itself, and reports it.  Whoever writes
the missing braces on a line of their own gets the same outline without the reports
(`outline_completed`).

Three things have to be seen for this.  The line break in front of the new line may take a carriage
return away from the last line, which is a blank at its end, and no blank at the end of a line counts
(`line_of_trails`).  The lookaheads reach the new lines, but learn nothing from them (`Mute`).  And a
scope that is closed by a brace records what it records at the end of the text, so that only the line
differs on which a second state block of an agent is reported (`Settled`).
-/

namespace AgentScript

open Text

namespace Script

/-! ## Blanks at the end of a line -/

/-- The first line is the second one with blanks at its end. -/
def Trails (l l' : List Char) : Prop := ∃ blanks, (∀ b ∈ blanks, isBlank b = true) ∧ l = l' ++ blanks

lemma Trails.refl (l : List Char) : Trails l l :=
  ⟨[], fun _ h => absurd h List.not_mem_nil, (List.append_nil l).symm⟩

lemma Trails.trim_eq {l l' : List Char} (h : Trails l l') : trim l = trim l' := by
  obtain ⟨blanks, hblanks, rfl⟩ := h
  exact trim_append_blanks hblanks l'

/-- Blanks behind a line move no header. -/
lemma openingsFrom_append {blanks : List Char} (hblanks : ∀ b ∈ blanks, isBlank b = true)
    (before : Nat) (cs : List Char) :
    openingsFrom before (cs ++ blanks) =
      (openingsFrom before cs).map fun o => { o with rest := o.rest ++ blanks } := by
  have hread := Header.read?_append_blanks hblanks cs
  cases h : Header.read? cs with
  | none =>
    rw [h] at hread
    rw [openingsFrom_of_read?_eq_none hread, openingsFrom_of_read?_eq_none h]
    rfl
  | some read =>
    obtain ⟨header, rest⟩ := read
    rw [h] at hread
    have hlt : rest.length < cs.length := Header.length_lt_of_read? h
    have hfront : ((cs ++ blanks).takeWhile isBlank).length = (cs.takeWhile isBlank).length := by
      have hlength : ∀ ds : List Char,
          (ds.takeWhile isBlank).length + (dropBlanks ds).length = ds.length := by
        intro ds
        rw [dropBlanks, ← List.length_append, List.takeWhile_append_dropWhile]
      rcases dropBlanks_append_blanks hblanks cs with ⟨hnil, -⟩ | happend
      · rw [← Header.read?_dropBlanks, hnil] at h
        cases h
      · have hcs := hlength cs
        have hboth := hlength (cs ++ blanks)
        rw [happend, List.length_append, List.length_append] at hboth
        omega
    rw [openingsFrom_of_read? hread, openingsFrom_of_read? h, List.map_cons, hfront,
      List.length_append, List.length_append, Nat.add_sub_add_right]
    split
    · rfl
    · rw [openingsFrom_append hblanks]
termination_by cs.length
decreasing_by exact hlt

/-! ## Lines that tell nothing -/

/-- A line that has no blanks around it, no header and no quotes. -/
structure Mute (l : List Char) : Prop where
  trim_eq : trim l = l
  read?_eq : Header.read? l = none
  isQuote_eq : ∀ c ∈ l, isQuote c = false

/-- The second lines are the first ones, apart from blanks around them, and mute lines. -/
def Ends (ls ls' : List (List Char)) : Prop :=
  ∃ mutes, ls'.map trim = ls.map trim ++ mutes ∧ ∀ l ∈ mutes, Mute l

variable {ls ls' mutes later later' : List (List Char)} {n : Nat}

lemma Ends.take (h : Ends ls ls') (count : Nat) : Ends (ls.take count) (ls'.take count) := by
  obtain ⟨mutes, heq, hmutes⟩ := h
  refine ⟨mutes.take (count - ls.length), ?_, fun l hl => hmutes l (List.mem_of_mem_take hl)⟩
  rw [List.map_take, heq, List.take_append, List.length_map, List.map_take]

lemma Ends.cons {l l' : List Char} (h : Ends ls ls') (hl : trim l = trim l') :
    Ends (l :: ls) (l' :: ls') := by
  obtain ⟨mutes, heq, hmutes⟩ := h
  exact ⟨mutes, by rw [List.map_cons, heq, List.map_cons, hl, List.cons_append], hmutes⟩

lemma Ends.codeLinesOf (h : Ends ls ls') :
    ∃ mutes, codeLinesOf ls' = codeLinesOf ls ++ mutes ∧ ∀ l ∈ mutes, Mute l := by
  obtain ⟨mutes, heq, hmutes⟩ := h
  refine ⟨mutes.filter (!·.isEmpty), ?_, fun l hl => hmutes l (List.mem_of_mem_filter hl)⟩
  rw [Script.codeLinesOf, heq, List.filter_append, Script.codeLinesOf]

/-- A search learns nothing from mute lines. -/
lemma findAgentClauses_append_mute (h : ∀ l ∈ mutes, Mute l) (depth : Int) (skipping : Option Int)
    (known : AgentClauses) (ls : List (List Char)) :
    findAgentClauses depth skipping known (ls ++ mutes) =
      findAgentClauses depth skipping known ls := by
  induction ls generalizing depth skipping known with
  | nil =>
    rw [List.nil_append, findAgentClauses]
    induction mutes generalizing depth skipping with
    | nil => rfl
    | cons l mutes ih =>
      have hl := h l List.mem_cons_self
      rw [findAgentClauses, starts_eq_false hl.read?_eq, startsAgent_eq_false hl.read?_eq,
        AgentClauses.add_of_quoteless hl.isQuote_eq]
      simp only [Bool.and_false, Bool.false_eq_true, if_false, ite_self]
      rw [ih fun l' hl' => h l' (List.mem_cons_of_mem l hl'), ite_self]
  | cons line later ih =>
    rw [List.cons_append, findAgentClauses, findAgentClauses]
    simp only [ih]

lemma findToolDescription_mute (h : ∀ l ∈ mutes, Mute l) : findToolDescription mutes = none := by
  induction mutes with
  | nil => rfl
  | cons l mutes ih =>
    have hl := h l List.mem_cons_self
    rw [findToolDescription, starts_eq_false hl.read?_eq, clause?_of_quoteless hl.isQuote_eq,
      ih fun l' hl' => h l' (List.mem_cons_of_mem l hl')]
    simp

lemma agentClauses_of_ends {rest rest' : List Char} (hrest : trim rest = trim rest')
    (h : Ends later later') : agentClauses rest' later' = agentClauses rest later := by
  obtain ⟨mutes, heq, hmutes⟩ := ((h.take agentReach).cons hrest).codeLinesOf
  have hfloor : ∀ floor ∈ (none : Option Int), floor < 0 := fun _ hfloor => by cases hfloor
  rw [agentClauses, agentClauses, ← findAgentClauses_codeLinesOf (Int.le_refl 0) hfloor, heq,
    findAgentClauses_append_mute hmutes, findAgentClauses_codeLinesOf (Int.le_refl 0) hfloor]

lemma toolDescription_of_ends {rest rest' : List Char} (hrest : trim rest = trim rest')
    (h : Ends later later') : toolDescription rest' later' = toolDescription rest later := by
  obtain ⟨mutes, heq, hmutes⟩ := (h.take toolReach).codeLinesOf
  have hlater : findToolDescription (later'.take toolReach) =
      findToolDescription (later.take toolReach) := by
    rw [← findToolDescription_codeLinesOf, heq,
      findToolDescription_append (findToolDescription_mute hmutes), findToolDescription_codeLinesOf]
  rw [toolDescription, toolDescription, ← clause?_description_trim rest', ← netBraces_trim rest',
    ← hrest, clause?_description_trim, netBraces_trim, hlater]

/-! ## Reading the lines of a completed script -/

namespace Reading

variable {r : Reading}

lemma openOne_of_ends (h : Ends later later') {blanks : List Char}
    (hblanks : ∀ b ∈ blanks, isBlank b = true) (r : Reading) (o : Opening) :
    r.openOne n later' o = r.openOne n later { o with rest := o.rest ++ blanks } := by
  have hrest : trim (o.rest ++ blanks) = trim o.rest := trim_append_blanks hblanks o.rest
  rw [openOne, openOne]
  dsimp only
  rw [agentClauses_of_ends hrest h, toolDescription_of_ends hrest h]

/-- **One line**: neither blanks at its end count, nor what tells nothing behind it. -/
theorem line_of_trails {l l' : List Char} (hl : Trails l l') (h : Ends later later') (r : Reading) :
    r.line n l' later' = r.line n l later := by
  obtain ⟨blanks, hblanks, rfl⟩ := hl
  have hopenings : openings (l' ++ blanks) =
      (openings l').map fun o => { o with rest := o.rest ++ blanks } :=
    openingsFrom_append hblanks 0 l'
  rw [line, line]
  by_cases hfields : r.inFields = true
  · rw [if_pos hfields, if_pos hfields, bodyText_nil, bodyText_nil, ← body_trim, ← trim_mask_trim,
      ← trim_append_blanks hblanks l', trim_mask_trim, body_trim]
    rfl
  · have hfold : (openings (l' ++ blanks)).foldl (openOne n later) r =
        (openings l').foldl (openOne n later') r := by
      rw [hopenings, List.foldl_map]
      apply List.foldl_ext
      intro r o _
      exact (openOne_of_ends h hblanks r o).symm
    rw [if_neg hfields, if_neg hfields, hfold, ← body_trim, ← trim_bodyText_append_blanks hblanks,
      body_trim]

/-- **Some lines**: as before, and then the mute ones. -/
theorem linesFrom_of_trails (h : List.Forall₂ Trails ls ls') (hmutes : ∀ l ∈ mutes, Mute l)
    (n : Nat) (r : Reading) :
    linesFrom n (ls' ++ mutes) r = linesFrom (n + ls.length) mutes (linesFrom n ls r) := by
  induction h generalizing n r with
  | nil => rfl
  | @cons l l' later later' hl hlater ih =>
    have htrim : later.map trim = later'.map trim :=
      forall₂_iff_map_eq.1 (hlater.imp fun _ _ h => h.trim_eq)
    have hmap : mutes.map trim = mutes :=
      (List.map_congr_left fun l hl => (hmutes l hl).trim_eq).trans (List.map_id' mutes)
    have hends : Ends later (later' ++ mutes) :=
      ⟨mutes, by rw [List.map_append, htrim, hmap], hmutes⟩
    rw [List.cons_append, linesFrom, line_of_trails hl hends, ih, linesFrom, List.length_cons,
      Nat.add_right_comm, Nat.add_assoc]

end Reading

/-! ## The lines of a completed text -/

/-- So many closing braces. -/
def closers (count : Nat) : List Char := List.replicate count '}'

lemma mute_closers (count : Nat) : Mute (closers count) := by
  have hmem : ∀ c ∈ closers count, c = '}' := fun c hc => List.eq_of_mem_replicate hc
  have hblank : ∀ c ∈ closers count, isBlank c = false := by
    intro c hc
    rw [hmem c hc]
    decide
  refine ⟨trim_eq_self (fun c hc => hblank c (List.mem_of_mem_head? hc)) fun c hc =>
    hblank c (List.mem_of_getLast? hc), ?_, fun c hc => ?_⟩
  · apply Header.read?_eq_none
    intro c hc
    have hdrop : dropBlanks (closers count) = closers count :=
      dropBlanks_eq_self fun c hc => hblank c (List.mem_of_mem_head? hc)
    rw [hdrop] at hc
    rw [hmem c (List.mem_of_mem_head? hc)]
    decide
  · rw [hmem c hc]
    decide

lemma mask_closers (count : Nat) : mask .code (closers count) = closers count := by
  induction count with
  | zero => rfl
  | succ count ih =>
    have hcode : ¬ startsComment ('}' :: closers count) := by
      rintro ⟨rest, heq⟩
      cases (List.cons.inj heq).1
    have hcons : closers (count + 1) = '}' :: closers count := List.replicate_succ
    rw [hcons, mask_code_cons hcode, if_neg (by decide), ih]

lemma lines_closers (count : Nat) : lines (closers (count + 1)) = [closers (count + 1)] := by
  induction count with
  | zero => rfl
  | succ count ih =>
    have hcons : closers (count + 2) = '}' :: closers (count + 1) := List.replicate_succ
    rw [hcons, lines_cons (by decide) (fun h => absurd h (by decide)), ih]
    rfl

/-- A line break behind the last character of a text takes it away if it is a carriage return. -/
lemma exists_lines_append_last {lineBreak : List Char}
    (hbreak : lineBreak = ['\n'] ∨ lineBreak = ['\r', '\n']) {c : Char} (hnew : c ≠ '\n')
    (further : List Char) :
    ∃ l, lines (c :: (lineBreak ++ further)) = l :: lines further ∧ Trails [c] l := by
  rcases hbreak with rfl | rfl
  · by_cases hc : c = '\r'
    · rw [hc]
      exact ⟨[], rfl, ['\r'], by decide, rfl⟩
    · have hisLine : IsLine [c] := by
        refine ⟨fun h => hnew (List.mem_singleton.1 h).symm, fun h => hc ?_⟩
        rwa [List.getLast?_singleton, Option.some.injEq] at h
      exact ⟨[c], lines_append_newline hisLine further, Trails.refl [c]⟩
  · have hrest : lines ('\r' :: '\n' :: further) = [] :: lines further := by rw [lines]
    have hhead : c = '\r' → ('\r' :: '\n' :: further).head? ≠ some '\n' := by
      intro _ h
      exact absurd (Option.some.inj h) (by decide)
    have hcons := lines_cons hnew hhead
    rw [hrest] at hcons
    exact ⟨[c], hcons, Trails.refl [c]⟩

/-- **A text with a line break and more behind it**: its lines, the last of which may lose a carriage
return, an empty line if it ends with a line break, and the further ones. -/
theorem exists_lines_append {lineBreak : List Char}
    (hbreak : lineBreak = ['\n'] ∨ lineBreak = ['\r', '\n']) (cs further : List Char) :
    ∃ ls' empty, lines (cs ++ (lineBreak ++ further)) = ls' ++ empty ++ lines further ∧
      List.Forall₂ Trails (lines cs) ls' ∧ (empty = [] ∨ empty = [[]]) := by
  induction cs using lines.induct with
  | case1 =>
    refine ⟨[], [[]], ?_, .nil, .inr rfl⟩
    rcases hbreak with rfl | rfl <;> rfl
  | case2 rest ih =>
    obtain ⟨ls', empty, heq, hls', hempty⟩ := ih
    refine ⟨[] :: ls', empty, ?_, ?_, hempty⟩
    · rw [List.cons_append, lines, heq]
      rfl
    · rw [lines]
      exact .cons (Trails.refl []) hls'
  | case3 rest ih =>
    obtain ⟨ls', empty, heq, hls', hempty⟩ := ih
    refine ⟨[] :: ls', empty, ?_, ?_, hempty⟩
    · rw [List.cons_append, List.cons_append, lines, heq]
      rfl
    · rw [lines]
      exact .cons (Trails.refl []) hls'
  | case4 c rest hnew hret hlines ih =>
    obtain rfl : rest = [] := by
      by_contra hne
      exact lines_ne_nil hne hlines
    have hline : lines [c] = [[c]] := by
      rw [lines_cons (fun h => hnew h) fun _ h => by cases h]
      rfl
    obtain ⟨l, heq, hl⟩ := exists_lines_append_last hbreak (fun h => hnew h) further
    refine ⟨[l], [], heq, ?_, .inl rfl⟩
    rw [hline]
    exact .cons hl .nil
  | case5 c rest hnew hret line others hlines ih =>
    obtain ⟨ls', empty, heq, hls', hempty⟩ := ih
    rw [hlines] at hls'
    have hne : rest ≠ [] := by
      rintro rfl
      cases hlines
    have hcons := lines_cons_append hne (fun h => hnew h) hret
    have hfront := hcons []
    rw [List.append_nil] at hfront
    cases hls' with
    | @cons _ line' _ others' hline hothers =>
      refine ⟨(c :: line') :: others', empty, ?_, ?_, hempty⟩
      · rw [List.cons_append, hcons, heq]
        rfl
      · rw [hfront, hlines]
        obtain ⟨blanks, hblanks, rfl⟩ := hline
        exact .cons ⟨blanks, hblanks, rfl⟩ hothers

/-! ## Closing by braces -/

namespace Reading

variable {r r' : Reading}

/-- Closes a scope by a brace of the given line. -/
def closeOne (line : Nat) (r : Reading) (scope : Scope) : Reading :=
  r.note line (r.repeatsState scope) ++ kept scope

lemma withoutScopes_eq_self (h : r.scopes = []) : { r with scopes := [] } = r := by
  cases r
  cases h
  rfl

lemma collect_nil (r : Reading) : r.collect [] = r :=
  collect_blank (fun _ h => absurd h List.not_mem_nil) r

/-- As many braces as there are scopes close them all, the innermost first. -/
lemma body_closers {scopes : List Scope} (h : r.scopes = scopes) :
    body n [] (closers scopes.length) r = scopes.foldl (closeOne n) { r with scopes := [] } := by
  induction scopes generalizing r with
  | nil =>
    rw [List.foldl_nil, withoutScopes_eq_self h]
    exact collect_nil r
  | cons scope outer ih =>
    have hcons : closers (outer.length + 1) = '}' :: closers outer.length := List.replicate_succ
    have hscopes : (r.close n).scopes = outer := by
      rw [close_eq_of_cons h, scopes_append, scopes_kept, List.nil_append, scopes_note, pop, h]
      rfl
    have hclose : { r.close n with scopes := [] } = closeOne n { r with scopes := [] } scope := by
      rw [close_eq_of_cons h, closeOne]
      ext : 1 <;> simp [pop, repeatsState]
    rw [List.length_cons, hcons, body, if_neg (by decide), if_pos rfl, collect_nil, ih hscopes, hclose,
      List.foldl_cons]

lemma line_closers (later : List (List Char)) (r : Reading) :
    r.line n (closers r.scopes.length) later =
      r.scopes.foldl (closeOne n) { r with scopes := [] } := by
  rw [line_of_not_opened (.inr (mute_closers _).read?_eq), mask_closers, body_closers rfl]

lemma line_empty (later : List (List Char)) (r : Reading) : r.line n [] later = r := by
  have hread : Header.read? [] = none := (mute_closers 0).read?_eq
  rw [line_of_not_opened (.inr hread)]
  exact collect_nil r

/-- Behind a line break, possibly with an empty line before it, the line of the closing braces. -/
lemma linesFrom_closers {empty : List (List Char)} (h : empty = [] ∨ empty = [[]]) (r : Reading) :
    ∃ m, n ≤ m ∧ linesFrom n (empty ++ lines (closers r.scopes.length)) r =
      r.scopes.foldl (closeOne m) { r with scopes := [] } := by
  have hclosers : ∀ m, linesFrom m (lines (closers r.scopes.length)) r =
      r.scopes.foldl (closeOne m) { r with scopes := [] } := by
    intro m
    cases hscopes : r.scopes with
    | nil =>
      rw [List.foldl_nil, withoutScopes_eq_self hscopes]
      rfl
    | cons scope outer =>
      have hline := line_closers (n := m) [] r
      rw [hscopes] at hline
      rw [List.length_cons, lines_closers, linesFrom, linesFrom]
      exact hline
  rcases h with rfl | rfl
  · exact ⟨n, Nat.le_refl n, hclosers n⟩
  · refine ⟨n + 1, Nat.le_succ n, ?_⟩
    rw [List.singleton_append, linesFrom, line_empty, hclosers]

/-! ## Closing at the end and closing by braces -/

/-- Whether a finding is a warning. -/
def isWarning (f : Finding) : Bool := !f.toDiagnostic.isError

/-- Two readings of which the first has closed scopes at the end of the text and the second one the
same scopes by braces: what was recorded is the same, and what was found is the same but for the
scopes that were not closed, and for the lines on which second state blocks are reported. -/
structure Settled (lineCount line : Nat) (front : List Finding) (r r' : Reading) : Prop where
  scopes : r'.scopes = r.scopes
  agents : r'.agents = r.agents
  tools : r'.tools = r.tools
  events : r'.events = r.events
  states : r'.states = r.states
  types : r'.types = r.types
  warnings : ∃ again : List Cause, (∀ cause ∈ again, cause.isStateAgain = true) ∧
    r.findings.filter isWarning = front ++ again.map (⟨lineCount, ·⟩) ∧
      r'.findings.filter isWarning = front ++ again.map (⟨line, ·⟩)
  strays : r'.findings.filter (·.cause.isStray) = r.findings.filter (·.cause.isStray)
  closed : ∀ f ∈ r'.findings, f.cause.isNeverClosed = false

variable {lineCount line : Nat} {front : List Finding}

lemma isStateAgain_of_repeatsState {scope : Scope} {cause : Cause}
    (h : cause ∈ (r.repeatsState scope).toList) : cause.isStateAgain = true := by
  rw [Option.mem_toList] at h
  obtain ⟨agent, -, hagent⟩ := Option.bind_eq_some_iff.1 h
  obtain ⟨-, ⟨⟩⟩ := Option.ite_none_right_eq_some.1 hagent
  rfl

lemma not_error_of_isStateAgain {cause : Cause} (h : cause.isStateAgain = true) :
    cause.isNeverClosed = false ∧ cause.isStray = false := by
  cases cause with
  | stateAgain _ => exact ⟨rfl, rfl⟩
  | _ => cases h

lemma findings_finishOne (r : Reading) (scope : Scope) :
    (finishOne lineCount r scope).findings = r.findings ++
      scope.neverClosed :: ((r.repeatsState scope).toList.map (⟨lineCount, ·⟩)) := by
  rw [finishOne, findings_append, findings_kept, List.append_nil, findings_note, findings_note,
    List.append_assoc, ← Option.toList_map]
  rfl

lemma findings_closeOne (r : Reading) (scope : Scope) :
    (closeOne line r scope).findings =
      r.findings ++ (r.repeatsState scope).toList.map (⟨line, ·⟩) := by
  rw [closeOne, findings_append, findings_kept, List.append_nil, findings_note, Option.toList_map]

/-- That a state block comes again is a warning. -/
lemma filter_stateAgain {causes : List Cause} (h : ∀ cause ∈ causes, cause.isStateAgain = true)
    (line : Nat) :
    (causes.map (Finding.mk line)).filter isWarning = causes.map (Finding.mk line) ∧
      (causes.map (Finding.mk line)).filter (·.cause.isStray) = [] := by
  refine ⟨List.filter_eq_self.2 fun f hf => ?_, List.filter_eq_nil_iff.2 fun f hf => ?_⟩ <;>
    obtain ⟨cause, hcause, rfl⟩ := List.mem_map.1 hf
  · rw [isWarning, Finding.isError_toDiagnostic, (not_error_of_isStateAgain (h cause hcause)).1,
      (not_error_of_isStateAgain (h cause hcause)).2]
    rfl
  · rw [(not_error_of_isStateAgain (h cause hcause)).2]
    exact Bool.false_ne_true

/-- **One scope**: closing it either way keeps the readings alike. -/
theorem Settled.step (h : Settled lineCount line front r r') (scope : Scope) :
    Settled lineCount line front (finishOne lineCount r scope) (closeOne line r' scope) := by
  obtain ⟨again, hagain, hfindings, hfindings'⟩ := h.warnings
  have hrepeats : r'.repeatsState scope = r.repeatsState scope := by
    rw [repeatsState, repeatsState, h.states]
  have hcauses : ∀ cause ∈ (r.repeatsState scope).toList, cause.isStateAgain = true :=
    fun _ hcause => isStateAgain_of_repeatsState hcause
  obtain ⟨hwarning, hstray⟩ := filter_stateAgain hcauses lineCount
  obtain ⟨hwarning', hstray'⟩ := filter_stateAgain hcauses line
  refine ⟨?_, ?_, ?_, ?_, ?_, ?_, ⟨again ++ (r.repeatsState scope).toList, ?_, ?_, ?_⟩, ?_, ?_⟩
  · simp [finishOne, closeOne, h.scopes]
  · simp [finishOne, closeOne, h.agents]
  · simp [finishOne, closeOne, h.tools]
  · simp [finishOne, closeOne, h.events]
  · simp [finishOne, closeOne, h.states]
  · simp [finishOne, closeOne, h.types]
  · exact fun cause hcause => (List.mem_append.1 hcause).elim (hagain cause) (hcauses cause)
  · rw [findings_finishOne, List.filter_append, hfindings, List.filter_cons_of_neg, hwarning,
      List.map_append, List.append_assoc]
    exact Bool.false_ne_true
  · rw [findings_closeOne, hrepeats, List.filter_append, hfindings', hwarning', List.map_append,
      List.append_assoc]
  · rw [findings_finishOne, findings_closeOne, hrepeats, List.filter_append, List.filter_append,
      h.strays, List.filter_cons_of_neg, hstray, hstray']
    exact Bool.false_ne_true
  · intro f hf
    rw [findings_closeOne, hrepeats, List.mem_append] at hf
    rcases hf with hf | hf
    · exact h.closed f hf
    · obtain ⟨cause, hcause, rfl⟩ := List.mem_map.1 hf
      exact (not_error_of_isStateAgain (hcauses cause hcause)).1

/-- **All scopes**, one after another. -/
theorem Settled.foldl (h : Settled lineCount line front r r') (scopes : List Scope) :
    Settled lineCount line front (scopes.foldl (finishOne lineCount) r)
      (scopes.foldl (closeOne line) r') := by
  induction scopes generalizing r r' with
  | nil => exact h
  | cons scope scopes ih => exact ih (h.step scope)

/-- Each scope that is closed at the end is reported once. -/
lemma noted_foldl_finishOne (scopes : List Scope) (r : Reading) :
    (scopes.foldl (finishOne lineCount) r).noted Cause.isNeverClosed =
      r.noted Cause.isNeverClosed + scopes.length := by
  induction scopes generalizing r with
  | nil => rfl
  | cons scope scopes ih =>
    have hone : (finishOne lineCount r scope).noted Cause.isNeverClosed =
        r.noted Cause.isNeverClosed + 1 := by
      have hagain : (r.repeatsState scope).toList.filter Cause.isNeverClosed = [] := by
        refine List.filter_eq_nil_iff.2 fun cause hcause => ?_
        rw [(not_error_of_isStateAgain (isStateAgain_of_repeatsState hcause)).1]
        exact Bool.false_ne_true
      have hkept : (kept scope).noted Cause.isNeverClosed = 0 := by
        rw [noted, findings_kept]
        rfl
      rw [finishOne, noted_append, noted_note, noted_note, hagain, hkept]
      rfl
    rw [List.foldl_cons, ih, hone, List.length_cons]
    omega

/-- Before the end of the text nothing is reported as never closed. -/
lemma Follows.not_neverClosed {bs : List Brace} (h : Follows bs r) :
    ∀ f ∈ r.findings, f.cause.isNeverClosed = false := by
  intro f hf
  by_contra hnever
  rw [Bool.not_eq_false] at hnever
  have herror : f ∈ r.errorFindings := by
    rw [errorFindings, List.mem_filter, Finding.isError_toDiagnostic, hnever]
    exact ⟨hf, rfl⟩
  rw [h.errors] at herror
  obtain ⟨stray, -, rfl⟩ := List.mem_map.1 herror
  cases hnever

end Reading

end Script

/-! ## The outline of a completed script -/

open Script

/-- The same warning, apart from the line on which a second state block is reported. -/
def Diagnostic.SameWarning (d d' : Diagnostic) : Prop :=
  d'.severity = d.severity ∧ d'.message = d.message ∧ (d.saysStateAgain = false → d'.line = d.line)

/-- The second outline says what the first one says, and reports nothing as never closed. -/
structure Outline.Completes (o o' : Outline) : Prop where
  agents : o'.agents = o.agents
  tools : o'.tools = o.tools
  events : o'.events = o.events
  states : o'.states = o.states
  types : o'.types = o.types
  warnings : List.Forall₂ Diagnostic.SameWarning (o.diagnostics.filter (!·.isError))
    (o'.diagnostics.filter (!·.isError))
  strays : o'.diagnostics.filter Diagnostic.saysStray = o.diagnostics.filter Diagnostic.saysStray
  closed : ∀ d ∈ o'.diagnostics, d.saysNeverClosed = false

namespace Script

inductive LineBreak where
  | lf
  | crlf
  deriving DecidableEq, Repr, Inhabited

def LineBreak.text : LineBreak → String
  | .lf => "\n"
  | .crlf => "\r\n"

/-- The script with a line more, which holds a closing brace for each one that is reported as never
closed. -/
def completed (lineBreak : LineBreak) (text : String) : String :=
  text ++ (lineBreak.text ++
    String.ofList (closers ((outline text).diagnostics.countP Diagnostic.saysNeverClosed)))

variable (lineBreak : LineBreak) (text : String)

/-- As many braces are reported as never closed as there are scopes at the end of the lines. -/
lemma countP_saysNeverClosed :
    (outline text).diagnostics.countP Diagnostic.saysNeverClosed =
      (Reading.linesFrom 1 (scriptLines text) {}).scopes.length := by
  have hnever := (declares_reading text).follows.not_neverClosed
  rw [countP_diagnostics Finding.saysNeverClosed_toDiagnostic, reading, Reading.finish_eq,
    Reading.noted_foldl_finishOne, Nat.add_eq_right, Reading.noted, List.countP_eq_zero]
  intro f hf
  rw [hnever f hf]
  exact Bool.false_ne_true

/-- The lines of a completed script. -/
lemma exists_scriptLines_completed :
    ∃ ls' empty, scriptLines (completed lineBreak text) = ls' ++ (empty ++
        lines (closers (Reading.linesFrom 1 (scriptLines text) {}).scopes.length)) ∧
      List.Forall₂ Trails (scriptLines text) ls' ∧ (empty = [] ∨ empty = [[]]) := by
  have hbreak : lineBreak.text.toList = ['\n'] ∨ lineBreak.text.toList = ['\r', '\n'] := by
    cases lineBreak
    · exact .inl rfl
    · exact .inr rfl
  obtain ⟨ls', empty, heq, hls', hempty⟩ := exists_lines_append hbreak
    (dropByteOrderMark text.toList)
    (closers (Reading.linesFrom 1 (scriptLines text) {}).scopes.length)
  refine ⟨ls', empty, ?_, hls', hempty⟩
  rw [List.append_assoc] at heq
  rw [completed, countP_saysNeverClosed, ← heq, scriptLines, String.toList_append,
    String.toList_append, String.toList_ofList]
  cases htext : text.toList with
  | nil => rcases hbreak with hbreak | hbreak <;> rw [hbreak] <;> rfl
  | cons c cs => rw [dropByteOrderMark_append (List.cons_ne_nil c cs)]

/-- **A completed script** is read to the end of the script and then on, until all scopes are closed by
the braces of a line behind it. -/
theorem exists_reading_completed :
    ∃ m, (scriptLines text).length < m ∧
      Reading.linesFrom 1 (scriptLines (completed lineBreak text)) {} =
        (Reading.linesFrom 1 (scriptLines text) {}).scopes.foldl (Reading.closeOne m)
          { Reading.linesFrom 1 (scriptLines text) {} with scopes := [] } := by
  obtain ⟨ls', empty, heq, hls', hempty⟩ := exists_scriptLines_completed lineBreak text
  have hmutes : ∀ count, ∀ l ∈ empty ++ lines (closers count), Mute l := by
    intro count l hl
    rcases List.mem_append.1 hl with hl | hl
    · obtain rfl : l = [] := by rcases hempty with rfl | rfl <;> simp_all
      exact mute_closers 0
    · cases count with
      | zero => cases hl
      | succ count =>
        rw [lines_closers, List.mem_singleton] at hl
        exact hl ▸ mute_closers (count + 1)
  obtain ⟨m, hm, hclosed⟩ := Reading.linesFrom_closers (n := 1 + (scriptLines text).length) hempty
    (Reading.linesFrom 1 (scriptLines text) {})
  refine ⟨m, by omega, ?_⟩
  rw [heq, Reading.linesFrom_of_trails hls' (hmutes _), hclosed]

/-- **Closed at the end or by braces**: the readings of a script and of the completed script. -/
theorem exists_settled_reading :
    ∃ m, (scriptLines text).length < m ∧
      Reading.Settled (scriptLines text).length m
        ((Reading.linesFrom 1 (scriptLines text) {}).findings.filter Reading.isWarning)
        (reading text) (reading (completed lineBreak text)) := by
  obtain ⟨m, hm, hread⟩ := exists_reading_completed lineBreak text
  have hstart : Reading.Settled (scriptLines text).length m
      ((Reading.linesFrom 1 (scriptLines text) {}).findings.filter Reading.isWarning)
      { Reading.linesFrom 1 (scriptLines text) {} with scopes := [] }
      { Reading.linesFrom 1 (scriptLines text) {} with scopes := [] } :=
    ⟨rfl, rfl, rfl, rfl, rfl, rfl, ⟨[], fun _ h => absurd h List.not_mem_nil,
      (List.append_nil _).symm, (List.append_nil _).symm⟩, rfl,
      (declares_reading text).follows.not_neverClosed⟩
  have hsettled := hstart.foldl (Reading.linesFrom 1 (scriptLines text) {}).scopes
  rw [← Reading.finish_eq, ← hread] at hsettled
  have hscopes : (Reading.linesFrom 1 (scriptLines (completed lineBreak text)) {}).scopes = [] := by
    rw [hsettled.scopes, Reading.finish_eq, (Reading.finish_scopes _ _ _).1]
  refine ⟨m, hm, ?_⟩
  rw [reading, reading, Reading.finish_eq_self hscopes]
  exact hsettled

/-- The warnings of a reading which has found the last of them on its last line. -/
lemma Reading.filter_diagnostics_of_warnings {r : Reading} {front : List Finding}
    {again : List Cause} {n : Nat}
    (h : r.findings.filter isWarning = front ++ again.map (Finding.mk n))
    (hfront : ∀ f ∈ front, f.line ≤ n) :
    r.diagnostics.filter (!·.isError) =
      sortedBy Diagnostic.line (front.map Finding.toDiagnostic) ++
        again.map fun cause => (Finding.mk n cause).toDiagnostic := by
  have hlast : ∀ d ∈ (again.map (Finding.mk n)).map Finding.toDiagnostic, d.line = n := by
    intro d hd
    rw [List.map_map] at hd
    obtain ⟨cause, -, rfl⟩ := List.mem_map.1 hd
    rfl
  have hbefore : ∀ d ∈ front.map Finding.toDiagnostic, d.line ≤ n := by
    intro d hd
    obtain ⟨f, hf, rfl⟩ := List.mem_map.1 hd
    exact hfront f hf
  have hkind : ∀ f : Finding, (!f.toDiagnostic.isError) = isWarning f := fun _ => rfl
  rw [filter_diagnostics hkind, h, List.map_append, sortedBy_append hbefore hlast, List.map_map]
  rfl

end Script

/-- **A script and the script completed** by the braces that are reported as missing have the same
outline, apart from those reports. -/
theorem outline_completed (lineBreak : LineBreak) (text : String) :
    (outline text).Completes (outline (completed lineBreak text)) := by
  obtain ⟨m, hm, h⟩ := exists_settled_reading lineBreak text
  obtain ⟨again, hagain, hfindings, hfindings'⟩ := h.warnings
  have hfront : ∀ f ∈ (Reading.linesFrom 1 (scriptLines text) {}).findings.filter
      Reading.isWarning, f.line ≤ (scriptLines text).length := by
    intro f hf
    have hempty : ({} : Reading).FoundUpTo 0 := fun _ hf => absurd hf List.not_mem_nil
    have hbound := hempty.linesFrom (scriptLines text) f (List.mem_of_mem_filter hf)
    rwa [Nat.zero_add] at hbound
  refine ⟨h.agents, h.tools, h.events, h.states, h.types, ?_, ?_, fun d hd => ?_⟩
  · have hwarnings := Reading.filter_diagnostics_of_warnings hfindings hfront
    have hwarnings' := Reading.filter_diagnostics_of_warnings hfindings' fun f hf =>
      (hfront f hf).trans hm.le
    rw [outline, outline, Reading.outline, Reading.outline, hwarnings, hwarnings']
    refine List.rel_append (List.forall₂_same.2 fun d _ => ⟨rfl, rfl, fun _ => rfl⟩) ?_
    rw [List.forall₂_map_left_iff, List.forall₂_map_right_iff, List.forall₂_same]
    intro cause hcause
    refine ⟨rfl, rfl, fun hfirst => ?_⟩
    rw [Finding.saysStateAgain_toDiagnostic, hagain cause hcause] at hfirst
    cases hfirst
  · rw [outline, outline, Reading.outline, Reading.outline,
      Reading.filter_diagnostics Finding.saysStray_toDiagnostic,
      Reading.filter_diagnostics Finding.saysStray_toDiagnostic, h.strays]
  · obtain ⟨f, hf, rfl⟩ := List.mem_map.1 ((perm_diagnostics _).mem_iff.1 hd)
    rw [Finding.saysNeverClosed_toDiagnostic, h.closed f hf]

end AgentScript
