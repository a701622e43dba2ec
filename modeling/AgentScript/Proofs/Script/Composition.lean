import AgentScript.Proofs.Script.Balance
import AgentScript.Proofs.Script.Likeness
import AgentScript.Proofs.Script.Relocation

/-!
# Scripts one behind another

Where a script without errors ends in a line break and another one follows that begins with a header,
the two are read as they are read alone, the second one further down (`outline_append`).

The scan of the second script begins with no scope open, since the braces of the first one are
balanced.  What could reach over the seam are the lookaheads of the first one.  That of an agent does
not: behind the agent's brace the script closes more braces than it opens, so that the search for
clauses, which counts braces line by line, ends within it whatever it skips on the way
(`findAgentClauses_append`).  That of a tool may run off the end of the first script, and then finds
nothing before the header that the second one begins with (`findToolDescription_append`).
-/

namespace AgentScript

open Script Text

namespace Script

/-! ## Lookaheads at the seam -/

/-- A search that comes to the end of the agent's body reads no further. -/
lemma findAgentClauses_append {depth : Int} {skipping : Option Int} {known : AgentClauses}
    {ls : List (List Char)} (hdepth : 0 ≤ depth) (hcloses : depth + (ls.map netBraces).sum < 0)
    (ls' : List (List Char)) :
    findAgentClauses depth skipping known (ls ++ ls') = findAgentClauses depth skipping known ls := by
  induction ls generalizing depth skipping known with
  | nil =>
    rw [List.map_nil, List.sum_nil] at hcloses
    omega
  | cons line later ih =>
    rw [List.cons_append, findAgentClauses, findAgentClauses]
    dsimp only
    split
    · rfl
    · split
      · rfl
      · rw [List.map_cons, List.sum_cons] at hcloses
        exact ih (by omega) (by omega)

/-- Where nothing is found behind the seam, a search finds what it finds before it. -/
lemma findToolDescription_append {ls ls' : List (List Char)} (h : findToolDescription ls' = none) :
    findToolDescription (ls ++ ls') = findToolDescription ls := by
  induction ls with
  | nil => exact h
  | cons line later ih =>
    rw [List.cons_append, findToolDescription, findToolDescription, ih]

/-- Whether the first line that holds more than blanks, if there is one, begins with a header.  A byte
order mark in front of the header counts as text, so that the line does not begin with it. -/
def beginsWithHeader (ls : List (List Char)) : Bool := (codeLinesOf ls).head?.all Header.starts

/-- A search ends at the header that a script begins with. -/
lemma findToolDescription_take {ls : List (List Char)} (h : beginsWithHeader ls = true) (k : Nat) :
    findToolDescription (ls.take k) = none := by
  have hfront : codeLinesOf (ls.take k) <+: codeLinesOf ls :=
    ((List.take_prefix k ls).map trim).filter _
  rw [← findToolDescription_codeLinesOf]
  cases hcodes : codeLinesOf (ls.take k) with
  | nil => rfl
  | cons code codes =>
    rw [hcodes] at hfront
    obtain ⟨rest, hrest⟩ := hfront
    rw [beginsWithHeader, ← hrest] at h
    rw [findToolDescription, if_pos (by exact h)]

section Lookahead

variable {line : Nat} {later later' : List (List Char)} {o : Opening} {r : Reading}

/-- The lookahead of an agent stays before the seam if the agent is closed there. -/
lemma agentClauses_append (hcloses : netBraces o.rest + (later.map netBraces).sum < 0) :
    agentClauses o.rest (later ++ later') = agentClauses o.rest later := by
  rw [agentClauses, agentClauses, List.take_append]
  rcases Nat.le_total agentReach later.length with hlong | hshort
  · rw [Nat.sub_eq_zero_of_le hlong, List.take_zero, List.append_nil]
  · rw [List.take_of_length_le hshort, ← List.cons_append]
    apply findAgentClauses_append (Int.le_refl 0)
    rw [List.map_cons, List.sum_cons]
    omega

/-- The lookahead of a tool finds nothing behind the seam. -/
lemma toolDescription_append (h : beginsWithHeader later' = true) :
    toolDescription o.rest (later ++ later') = toolDescription o.rest later := by
  rw [toolDescription, toolDescription, List.take_append,
    findToolDescription_append (findToolDescription_take h _)]

/-- A header of the first script is opened as if nothing followed. -/
lemma openOne_append (h : beginsWithHeader later' = true)
    (hcloses : netBraces o.rest + (later.map netBraces).sum < 0) (r : Reading) :
    r.openOne line (later ++ later') o = r.openOne line later o := by
  rw [Reading.openOne, Reading.openOne, agentClauses_append hcloses, toolDescription_append h]

end Lookahead

/-! ## The first script -/

lemma sum_net_bracesFrom (line : Nat) (before : List Brace) (ls : List (List Char)) :
    ((bracesFrom line before ls).map Brace.net).sum = (ls.map netBraces).sum := by
  induction ls generalizing line before with
  | nil => rfl
  | cons text later ih =>
    rw [bracesFrom, List.map_append, List.sum_append, ih, lineBraces, sum_net_tag, List.map_cons,
      List.sum_cons, netBraces]

namespace Reading

variable {r : Reading} {bs : List Brace} {line : Nat} {ls ls' : List (List Char)}

/-- **The first script** is read as if nothing followed, if its braces are balanced. -/
theorem Follows.linesFrom_append (h : Follows bs r)
    (hplain : ∀ m ∈ occurrencesFrom line bs ls, m.header.HasPlainParams)
    (hbalanced : balanced (bs ++ bracesFrom line bs ls) = true)
    (hbegins : beginsWithHeader ls' = true) :
    linesFrom line (ls ++ ls') r = linesFrom (line + ls.length) ls' (linesFrom line ls r) := by
  induction ls generalizing bs r line with
  | nil => rfl
  | cons text later ih =>
    have hheaders := hasPlainParams_headersOf hplain
    rw [bracesFrom, ← List.append_assoc] at hbalanced
    have hopened : (headersOf bs text).foldl (Reading.openOne line (later ++ ls')) r =
        (headersOf bs text).foldl (Reading.openOne line later) r := by
      apply List.foldl_ext
      intro r o ho
      apply openOne_append hbegins
      -- Behind the brace of the header stand the rest of the line and the lines after it.
      obtain ⟨front, back, hline, hback⟩ :=
        (heads_headersOf bs text).exists_of_mem hheaders line ho
      rw [← lineBraces] at hline
      rw [hline, ← List.append_assoc bs, List.append_assoc _ _ (bracesFrom _ _ _),
        List.cons_append] at hbalanced
      have hneg := sum_net_neg hbalanced
      rwa [List.map_append, List.sum_append, hback, sum_net_bracesFrom] at hneg
    have hfirst : r.line line text (later ++ ls') = r.line line text later := by
      rw [Reading.line, Reading.line, h.opened_eq, hopened]
    have hnext : Follows (bs ++ lineBraces line bs text) (r.line line text later) :=
      h.nextLine hheaders
    have hlater := ih hnext (fun m hm => hplain m (List.mem_append_right _ hm)) hbalanced
    rw [List.cons_append, linesFrom, linesFrom, hfirst, hlater, List.length_cons]
    congr 1
    omega

end Reading

/-! ## Both scripts -/

variable {a b : String}

/-- A script that begins with a header begins with no byte order mark. -/
lemma isMarked_eq_false (h : beginsWithHeader (lines b.toList) = true) : isMarked b = false := by
  by_contra hmarked
  rw [Bool.not_eq_false] at hmarked
  have hblank : isBlank '\uFEFF' = false := by decide
  have htrim : ∀ cs : List Char, trim ('\uFEFF' :: cs) ≠ [] := by
    intro cs
    rw [trim_cons hblank]
    exact List.cons_ne_nil _ _
  rw [toList_of_isMarked hmarked, lines_cons (by decide) (fun heq => absurd heq (by decide)),
    beginsWithHeader, codeLinesOf_cons (htrim _), List.head?_cons, Option.all_some, trim_cons hblank,
    Header.starts, Header.read?_eq_none] at h
  · cases h
  · intro c hc
    rw [dropBlanks_of_not_isBlank hblank, List.head?_cons, Option.some.injEq] at hc
    rw [← hc]
    decide

/-- The mark at the front is not looked for behind the seam. -/
lemma dropByteOrderMark_append {cs : List Char} (h : cs ≠ []) (cs' : List Char) :
    dropByteOrderMark (cs ++ cs') = dropByteOrderMark cs ++ cs' := by
  cases cs with
  | nil => exact absurd rfl h
  | cons c cs =>
    by_cases hc : c = '\uFEFF'
    · rw [hc]
      rfl
    · rw [List.cons_append, dropByteOrderMark, dropByteOrderMark, List.cons_append]
      all_goals rintro _ ⟨⟩; exact hc rfl

lemma getLast?_dropByteOrderMark {cs : List Char} (h : cs.getLast? = some '\n') :
    (dropByteOrderMark cs).getLast? = some '\n' := by
  rw [dropByteOrderMark.eq_def]
  split
  next cs =>
    cases cs with
    | nil => cases h
    | cons c cs => rwa [List.getLast?_cons_cons] at h
  next => exact h

lemma scriptLines_append (hbreak : a.toList.getLast? = some '\n') (hmark : isMarked b = false) :
    scriptLines (a ++ b) = scriptLines a ++ scriptLines b := by
  have hne : a.toList ≠ [] := by
    rintro hnil
    rw [hnil] at hbreak
    cases hbreak
  rw [scriptLines, scriptLines, scriptLines, dropByteOrderMark_of_not_isMarked hmark,
    String.toList_append, dropByteOrderMark_append hne,
    lines_append (getLast?_dropByteOrderMark hbreak)]

/-- The two scripts are read as they are read alone, the second one below the lines of the first one.
What is found beyond that are warnings about names that both of them declare. -/
structure ReadsApart (a b : String) : Prop where
  agents : (outline (a ++ b)).agents =
    (outline a).agents ++ (outline b).agents.map (AgentDecl.down (scriptLines a).length)
  tools : (outline (a ++ b)).tools =
    (outline a).tools ++ (outline b).tools.map (ToolDecl.down (scriptLines a).length)
  events : (outline (a ++ b)).events =
    (outline a).events ++ (outline b).events.map (EventDecl.down (scriptLines a).length)
  states : (outline (a ++ b)).states =
    (outline a).states ++ (outline b).states.map (StateDecl.down (scriptLines a).length)
  types : (outline (a ++ b)).types =
    (outline a).types ++ (outline b).types.map (TypeDecl.down (scriptLines a).length)
  diagnostics : ∃ further : List Finding,
    (outline (a ++ b)).diagnostics.Perm
      ((outline a).diagnostics ++ ((reading b).down (scriptLines a).length).diagnostics ++
        further.map Finding.toDiagnostic) ∧
      ∀ f ∈ further, f.cause.severity = .warning ∧ f.cause.IsShared (outline a) (outline b)

lemma Reading.finish_eq_self {r : Reading} (h : r.scopes = []) (lineCount : Nat) :
    r.finish lineCount = r := by
  cases r
  cases h
  rfl

/-- Where the braces are balanced, nothing is left open at the end. -/
lemma reading_eq_linesFrom (hplain : HasPlainTools a) (hfaultless : (outline a).isFaulty = false) :
    reading a = Reading.linesFrom 1 (scriptLines a) {} ∧ (reading a).scopes = [] := by
  have hbalanced := (isFaulty_eq_false_iff hplain).1 hfaultless
  have hclosed : (Reading.linesFrom 1 (scriptLines a) {}).scopes = [] := by
    have hscopes := (Reading.follows_scriptLines hplain).scopes
    rw [beq_iff_eq.1 hbalanced] at hscopes
    exact List.map_eq_nil_iff.1 hscopes
  have hfinish : reading a = Reading.linesFrom 1 (scriptLines a) {} :=
    Reading.finish_eq_self hclosed _
  exact ⟨hfinish, hfinish ▸ hclosed⟩

/-- **Scripts one behind another are read apart**, if the first one ends in a line break and has no
errors, and the second one begins with a header. -/
theorem outline_append (hbreak : a.toList.getLast? = some '\n')
    (hfaultless : (outline a).isFaulty = false) (hplain : HasPlainTools a)
    (hbegins : beginsWithHeader (lines b.toList) = true) : ReadsApart a b := by
  have hmark := isMarked_eq_false hbegins
  obtain ⟨hfirst, hclosed⟩ := reading_eq_linesFrom hplain hfaultless
  have hbegins' : beginsWithHeader (scriptLines b) = true := by
    rwa [scriptLines, dropByteOrderMark_of_not_isMarked hmark]
  have hseam : Reading.linesFrom 1 (scriptLines (a ++ b)) {} =
      Reading.linesFrom (1 + (scriptLines a).length) (scriptLines b) (reading a) := by
    rw [scriptLines_append hbreak hmark, hfirst]
    exact Reading.follows_nil.linesFrom_append hplain
      ((isFaulty_eq_false_iff hplain).1 hfaultless) hbegins'
  have hbehind : (reading a).Behind (scriptLines a).length (reading b) (reading (a ++ b)) := by
    have hlength :
        (scriptLines (a ++ b)).length = (scriptLines b).length + (scriptLines a).length := by
      rw [scriptLines_append hbreak hmark, List.length_append, Nat.add_comm]
    rw [reading.eq_1 b, reading.eq_1 (a ++ b), hlength, hseam]
    exact ((Reading.behind_nil hclosed _).linesFrom 1 (scriptLines b)).finish (scriptLines b).length
  obtain ⟨further, hperm, hshared⟩ := hbehind.findings
  refine ⟨hbehind.agents, hbehind.tools, hbehind.events, hbehind.states, hbehind.types, further, ?_,
    fun f hf => ⟨(hshared f hf).severity, hshared f hf⟩⟩
  calc (reading (a ++ b)).diagnostics
      |>.Perm ((reading (a ++ b)).findings.map Finding.toDiagnostic) := perm_diagnostics _
    _ |>.Perm (((reading a).findings ++ ((reading b).down (scriptLines a).length).findings ++
          further).map Finding.toDiagnostic) := hperm.map _
    _ |>.Perm _ := by
      rw [List.map_append, List.map_append]
      exact ((perm_diagnostics _).symm.append (perm_diagnostics _).symm).append_right _

/-- A script without errors that ends with a tool, whose lookahead runs off the end. -/
def upperText : String := "agent A \x7b\n  tool t() \x7b\n  \x7d\n\x7d\n"

/-- A script that declares the same agent, and never closes it. -/
def lowerText : String := "\nagent A \x7b\n  description: \"of the lower one\"\n"

theorem outline_append_lowerText :
    upperText.toList.getLast? = some '\n' ∧ (outline upperText).isFaulty = false ∧
      HasPlainTools upperText ∧ beginsWithHeader (lines lowerText.toList) = true ∧
      ReadsApart upperText lowerText ∧
      (outline (upperText ++ lowerText)).agents.map (fun d => (d.name, d.description, d.place.line)) =
        [("A", none, 1), ("A", some "of the lower one", 6)] :=
  have hplain : HasPlainTools upperText := by decide +kernel
  have hfaultless : (outline upperText).isFaulty = false :=
    (isFaulty_eq_false_iff hplain).2 (by decide +kernel)
  ⟨by decide +kernel, hfaultless, hplain, by decide +kernel,
    outline_append (by decide +kernel) hfaultless hplain (by decide +kernel), by decide +kernel⟩

end Script

end AgentScript
