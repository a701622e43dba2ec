import AgentScript.Proofs.Script.Trimming
import AgentScript.Script.Equivalence

/-!
# What a lookahead reads

A lookahead goes through the lines that follow a header until something ends it: the brace that
closes the body, the header of another agent, a description that was found, or its limit of lines.
The lines up to there are all it depends on (`findAgentClauses_readForAgent`), and of these only the
ones that hold more than blanks, trimmed (`findAgentClauses_codeLinesOf`).

The limit counts every line, and a blank line uses it up like any other.  So where two scripts are
equivalent, a lookahead reads the same lines in both unless the limit cuts it off at different
places.  `lookaheads` lists what the lookaheads of a script read, for comparing two scripts.
-/

namespace AgentScript.Script

open AgentScript.Text

/-- Of some lines, those that hold more than blanks, without the blanks around them. -/
def codeLinesOf (ls : List (List Char)) : List (List Char) := (ls.map trim).filter (!·.isEmpty)

lemma codeLinesOf_cons_blank {l : List Char} (h : trim l = []) (ls : List (List Char)) :
    codeLinesOf (l :: ls) = codeLinesOf ls := by
  rw [codeLinesOf, List.map_cons, h]
  rfl

lemma codeLinesOf_cons {l : List Char} (h : trim l ≠ []) (ls : List (List Char)) :
    codeLinesOf (l :: ls) = trim l :: codeLinesOf ls := by
  rw [codeLinesOf, List.map_cons, List.filter_cons_of_pos, codeLinesOf]
  rw [Bool.not_eq_true', List.isEmpty_eq_false_iff]
  exact h

/-! ## Agents -/

/-- The lines that the search for the clauses of an agent reads. -/
def readForAgent (depth : Int) (skipping : Option Int) : List (List Char) → List (List Char)
  | [] => []
  | line :: later =>
    if skipping.isNone && Header.startsAgent line then []
    else
      let floor := if skipping.isNone && Header.starts line then some depth else skipping
      let depth := depth + netBraces line
      line :: if depth < 0 then [] else readForAgent depth (floor.filter (· < depth)) later

/-- The search depends on no other lines. -/
lemma findAgentClauses_readForAgent (depth : Int) (skipping : Option Int) (known : AgentClauses)
    (ls : List (List Char)) :
    findAgentClauses depth skipping known (readForAgent depth skipping ls) =
      findAgentClauses depth skipping known ls := by
  induction ls generalizing depth skipping known with
  | nil => rfl
  | cons line later ih =>
    rw [readForAgent]
    by_cases hagent : (skipping.isNone && Header.startsAgent line) = true
    · rw [if_pos hagent, findAgentClauses, findAgentClauses, if_pos hagent]
    · rw [if_neg hagent, findAgentClauses, findAgentClauses, if_neg hagent, if_neg hagent]
      dsimp only
      by_cases hdepth : depth + netBraces line < 0
      · rw [if_pos hdepth, if_pos hdepth]
      · rw [if_neg hdepth, if_neg hdepth, if_neg hdepth, ih]

/-- A blank line tells nothing about an agent. -/
lemma findAgentClauses_cons_blank {depth : Int} {skipping : Option Int} (hdepth : 0 ≤ depth)
    (hskipping : ∀ floor ∈ skipping, floor < depth) (known : AgentClauses) {line : List Char}
    (hline : trim line = []) (later : List (List Char)) :
    findAgentClauses depth skipping known (line :: later) =
      findAgentClauses depth skipping known later := by
  have hagent : Header.startsAgent line = false := by
    rw [← startsAgent_trim, hline]
    rfl
  have hstarts : Header.starts line = false := by
    rw [← starts_trim, hline]
    rfl
  have hadd : known.add line = known := by
    rw [← add_trim, hline]
    rfl
  have hbraces : netBraces line = 0 := by
    rw [← netBraces_trim, hline]
    rfl
  have hfloor : skipping.filter (· < depth) = skipping := by
    cases skipping with
    | none => rfl
    | some floor => rw [Option.filter_some, if_pos (decide_eq_true (hskipping floor rfl))]
  rw [findAgentClauses, hagent, hstarts, hadd, hbraces, Int.add_zero]
  simp only [Bool.and_false, Bool.false_eq_true, if_false, hfloor, ite_self,
    if_neg (Int.not_lt.2 hdepth)]

/-- The search sees of each line what is left of it when it is trimmed. -/
lemma findAgentClauses_codeLinesOf {depth : Int} {skipping : Option Int} (hdepth : 0 ≤ depth)
    (hskipping : ∀ floor ∈ skipping, floor < depth) (known : AgentClauses)
    (ls : List (List Char)) :
    findAgentClauses depth skipping known (codeLinesOf ls) =
      findAgentClauses depth skipping known ls := by
  induction ls generalizing depth skipping known with
  | nil => rfl
  | cons line later ih =>
    by_cases hline : trim line = []
    · rw [codeLinesOf_cons_blank hline, findAgentClauses_cons_blank hdepth hskipping known hline,
        ih hdepth hskipping]
    · rw [codeLinesOf_cons hline, findAgentClauses, findAgentClauses, startsAgent_trim, starts_trim,
        add_trim, netBraces_trim]
      dsimp only
      by_cases hclosed : depth + netBraces line < 0
      · rw [if_pos hclosed, if_pos hclosed]
      · rw [if_neg hclosed, if_neg hclosed, ih (Int.not_lt.1 hclosed)]
        intro floor hfloor
        exact of_decide_eq_true (Option.mem_filter_iff.1 hfloor).2

/-- The clauses of an agent, by the lines the search reads. -/
lemma agentClauses_eq (rest : List Char) (later : List (List Char)) :
    agentClauses rest later = findAgentClauses 0 none {}
      (codeLinesOf (readForAgent 0 none (rest :: later.take agentReach))) := by
  rw [findAgentClauses_codeLinesOf (Int.le_refl 0) (fun _ h => by cases h),
    findAgentClauses_readForAgent, agentClauses]

/-! ## Tools -/

/-- The lines that the search for the description of a tool reads. -/
def readForTool : List (List Char) → List (List Char)
  | [] => []
  | line :: later =>
    if Header.starts line then []
    else
      line :: if (clause? "description" line).isSome || onlyCloses line then []
        else readForTool later

lemma findToolDescription_readForTool (ls : List (List Char)) :
    findToolDescription (readForTool ls) = findToolDescription ls := by
  induction ls with
  | nil => rfl
  | cons line later ih =>
    rw [readForTool, findToolDescription]
    by_cases hstarts : Header.starts line = true
    · rw [if_pos hstarts, if_pos hstarts]
      rfl
    · rw [if_neg hstarts, if_neg hstarts, findToolDescription, if_neg hstarts]
      cases clause? "description" line with
      | some value => rfl
      | none =>
        dsimp only
        by_cases hcloses : onlyCloses line = true
        · rw [if_pos hcloses, if_pos hcloses]
        · rw [if_neg hcloses, if_neg hcloses, Option.isSome_none, Bool.false_or, if_neg hcloses, ih]

lemma findToolDescription_codeLinesOf (ls : List (List Char)) :
    findToolDescription (codeLinesOf ls) = findToolDescription ls := by
  induction ls with
  | nil => rfl
  | cons line later ih =>
    by_cases hline : trim line = []
    · have hstarts : Header.starts line = false := by
        rw [← starts_trim, hline]
        rfl
      have hclause : clause? "description" line = none := by
        rw [← clause?_description_trim, hline]
        rfl
      have hcloses : onlyCloses line = false := by
        rw [← onlyCloses_trim, hline]
        rfl
      rw [codeLinesOf_cons_blank hline, ih, findToolDescription, hstarts, hclause, hcloses]
      rfl
    · rw [codeLinesOf_cons hline, findToolDescription, findToolDescription, starts_trim,
        clause?_description_trim, onlyCloses_trim, ih]

/-! ## Openings and scripts -/

/-- The lines that the lookahead of an opening reads, if it has one. -/
def Opening.reads (later : List (List Char)) (o : Opening) : List (List Char) :=
  match o.header with
  | .agent _ => readForAgent 0 none (o.rest :: later.take agentReach)
  | .tool _ _ _ =>
    if (clause? "description" o.rest).isSome || netBraces o.rest < 0 then []
    else readForTool (later.take toolReach)
  | _ => []

/-- What the lookaheads of a script read: for each line that is not blank, and for each of its
openings, the lines without the blank ones and without the blanks around them. -/
def lookaheads : List (List Char) → List (List (List (List Char)))
  | [] => []
  | line :: later =>
    if trim line = [] then lookaheads later
    else (openings line).map (fun o => codeLinesOf (o.reads later)) :: lookaheads later

lemma toolDescription_eq {name params : String} {returns : Option String} {o : Opening}
    (h : o.header = .tool name params returns) (later : List (List Char)) :
    toolDescription o.rest later =
      match clause? "description" (trim o.rest) with
      | some value => some value
      | none =>
        if netBraces (trim o.rest) < 0 then none
        else findToolDescription (codeLinesOf (o.reads later)) := by
  rw [toolDescription, clause?_description_trim, netBraces_trim, findToolDescription_codeLinesOf,
    Opening.reads, h]
  dsimp only
  cases clause? "description" o.rest with
  | some value => rfl
  | none =>
    dsimp only
    by_cases hbraces : netBraces o.rest < 0
    · rw [if_pos hbraces, if_pos hbraces]
    · rw [if_neg hbraces, if_neg hbraces, Option.isSome_none, Bool.false_or, if_neg,
        findToolDescription_readForTool]
      simpa using hbraces

end AgentScript.Script
