import AgentScript.Proofs.Script.Clauses

/-!
# The search for clauses in written lines

The search for an agent's clauses goes through the lines of a canonical block in two ways.  Lines at
the agent's own level change what is known (`Tells`).  From the members of the agent and from what
follows the agent nothing is learnt (`Quiet`), wherever the search ends.

Quietness is shown line by line from the end of the script.  A header may fail to open a brace that
counts, or open too many, so that the search takes the end of a member for the end of the agent, or
goes on in the next block.  Neither does any harm: a line can be learnt from only if it holds a
quoted clause, so what matters is that such lines stand behind a header whose brace counts
(`Hidden.header`).

The search for a tool's description sees the tool's own lines only, of which there are at most three
after the header.
-/

namespace AgentScript.Script

open AgentScript.Text

/-! ## Lines that hold no header or no clause -/

lemma starts_eq_false {line : List Char} (h : Header.read? line = none) :
    Header.starts line = false := by
  rw [Header.starts, h]
  rfl

lemma startsAgent_eq_false {line : List Char} (h : Header.read? line = none) :
    Header.startsAgent line = false := by
  rw [Header.startsAgent, Header.readAgent_of_read?_eq_none h]
  rfl

/-- A line without quotes tells nothing. -/
lemma AgentClauses.add_of_quoteless {line : List Char} (h : ∀ c ∈ line, isQuote c = false)
    (known : AgentClauses) : known.add line = known := by
  simp [AgentClauses.add, AgentClauses.modelWith, clause?_of_quoteless h]

/-! ## One line -/

variable {depth : Int} {known known' known'' : AgentClauses} {line : List Char}

lemma findAgentClauses_own (hread : Header.read? line = none) (h : 0 ≤ depth + netBraces line)
    (later : List (List Char)) :
    findAgentClauses depth none known (line :: later) =
      findAgentClauses (depth + netBraces line) none (known.add line) later := by
  have hdepth : ¬ depth + netBraces line < 0 := by omega
  rw [findAgentClauses]
  simp [starts_eq_false hread, startsAgent_eq_false hread, hdepth]

lemma findAgentClauses_ends (hread : Header.read? line = none) (h : depth + netBraces line < 0)
    (later : List (List Char)) :
    findAgentClauses depth none known (line :: later) = known.add line := by
  rw [findAgentClauses]
  simp [starts_eq_false hread, startsAgent_eq_false hread, h]

/-- The depth outside the member that is passed over at the given depth, if the member began at the
agent's own level. -/
def floorAt (depth : Int) : Option Int := (some 0).filter (· < depth)

lemma floorAt_of_pos (h : 0 < depth) : floorAt depth = some 0 := by
  simp [floorAt, Option.filter, h]

lemma findAgentClauses_header (hstarts : Header.starts line = true)
    (hagent : Header.startsAgent line = false) (later : List (List Char)) :
    findAgentClauses 0 none known (line :: later) =
      if netBraces line < 0 then known
      else findAgentClauses (netBraces line) (floorAt (netBraces line)) known later := by
  rw [findAgentClauses]
  simp [hstarts, hagent, floorAt]

/-- Within a member a line counts for its braces only. -/
lemma findAgentClauses_within (later : List (List Char)) :
    findAgentClauses depth (some 0) known (line :: later) =
      if depth + netBraces line < 0 then known
      else findAgentClauses (depth + netBraces line) (floorAt (depth + netBraces line)) known
        later := by
  rw [findAgentClauses]
  simp [floorAt]

/-! ## Lines at the agent's own level -/

/-- Lines that turn what is known into something else, if the search reaches beyond them. -/
def Tells (ls : List (List Char)) (known known' : AgentClauses) : Prop :=
  ∀ n later, findAgentClauses 0 none known ((ls ++ later).take (ls.length + n)) =
    findAgentClauses 0 none known' (later.take n)

lemma tells_nil (known : AgentClauses) : Tells [] known known := by
  intro n later
  rw [List.nil_append, List.length_nil, Nat.zero_add]

lemma Tells.append {xs ys : List (List Char)} (hx : Tells xs known known')
    (hy : Tells ys known' known'') : Tells (xs ++ ys) known known'' := by
  intro n later
  rw [List.append_assoc, List.length_append, Nat.add_assoc, hx, hy]

lemma tells_line (hread : Header.read? line = none) (hbraces : netBraces line = 0) :
    Tells [line] known (known.add line) := by
  intro n later
  have htake : ([line] ++ later).take ([line].length + n) = line :: later.take n := by
    rw [List.singleton_append, List.length_singleton, Nat.add_comm, List.take_succ_cons]
  rw [htake, findAgentClauses_own hread (by rw [hbraces]; decide), hbraces, Int.add_zero]

/-- Lines within braces of the agent's own, and the line that closes these braces. -/
lemma findAgentClauses_ownBody {body : List (List Char)}
    (hbody : ∀ l ∈ body, Header.read? l = none ∧ netBraces l = 0) {close : List Char}
    (hread : Header.read? close = none) (hquotes : ∀ c ∈ close, isQuote c = false)
    (hclose : netBraces close = -1) (n : Nat) (known : AgentClauses) (later : List (List Char)) :
    findAgentClauses 1 none known ((body ++ close :: later).take (body.length + 1 + n)) =
      findAgentClauses 0 none (body.foldl AgentClauses.add known) (later.take n) := by
  induction body generalizing known with
  | nil =>
    have hlength : ([] : List (List Char)).length + 1 + n = n + 1 := by simp; omega
    rw [List.nil_append, hlength, List.take_succ_cons,
      findAgentClauses_own hread (by rw [hclose]; decide), hclose,
      AgentClauses.add_of_quoteless hquotes]
    rfl
  | cons l body ih =>
    obtain ⟨hl, hbraces⟩ := hbody l List.mem_cons_self
    have hlength : (l :: body).length + 1 + n = body.length + 1 + n + 1 := by
      rw [List.length_cons]
      omega
    rw [List.cons_append, hlength, List.take_succ_cons,
      findAgentClauses_own hl (by rw [hbraces]; decide), hbraces, Int.add_zero,
      ih fun l' hl' => hbody l' (List.mem_cons_of_mem l hl')]
    rfl

/-- A block at the agent's own level tells what its lines tell. -/
lemma tells_braced {head close : List Char} {body : List (List Char)}
    (hhead : Header.read? head = none) (hquotes : ∀ c ∈ head, isQuote c = false)
    (hopen : netBraces head = 1) (hbody : ∀ l ∈ body, Header.read? l = none ∧ netBraces l = 0)
    (hread : Header.read? close = none) (hquotes' : ∀ c ∈ close, isQuote c = false)
    (hclose : netBraces close = -1) (known : AgentClauses) :
    Tells (head :: (body ++ [close])) known (body.foldl AgentClauses.add known) := by
  intro n later
  have hlength : (head :: (body ++ [close])).length + n = body.length + 1 + n + 1 := by
    simp
    omega
  have hlines : head :: (body ++ [close]) ++ later = head :: (body ++ close :: later) := by
    simp
  rw [hlength, hlines, List.take_succ_cons, findAgentClauses_own hhead (by rw [hopen]; decide),
    hopen, AgentClauses.add_of_quoteless hquotes, Int.zero_add,
    findAgentClauses_ownBody hbody hread hquotes' hclose]

/-- An empty line tells nothing. -/
lemma tells_empty (known : AgentClauses) : Tells [[]] known known := by
  have hline : Tells [[]] known (known.add []) := tells_line (by decide) rfl
  rwa [AgentClauses.add_of_quoteless fun _ h => absurd h List.not_mem_nil] at hline

/-! ## Lines that tell nothing -/

/-- Lines from which nothing is learnt within a member that began at the agent's own level, wherever
the search ends. -/
def Hidden (ls : List (List Char)) : Prop :=
  ∀ depth, 0 < depth → ∀ known n, findAgentClauses depth (some 0) known (ls.take n) = known

/-- Lines from which nothing is learnt, neither at the agent's own level nor within a member. -/
structure Quiet (ls : List (List Char)) : Prop where
  own : ∀ known n, findAgentClauses 0 none known (ls.take n) = known
  hidden : Hidden ls

variable {later : List (List Char)}

lemma hidden_nil : Hidden [] := by
  intro depth _ known n
  rw [List.take_nil]
  rfl

lemma quiet_nil : Quiet [] where
  own known n := by
    rw [List.take_nil]
    rfl
  hidden := hidden_nil

/-- The search goes on quietly at any depth. -/
lemma Quiet.search (h : Quiet later) (hdepth : 0 ≤ depth) (known : AgentClauses) (n : Nat) :
    findAgentClauses depth (floorAt depth) known (later.take n) = known := by
  rcases Int.lt_or_eq_of_le hdepth with hpos | rfl
  · rw [floorAt_of_pos hpos]
    exact h.hidden depth hpos known n
  · exact h.own known n

/-- Within a member any line may come before quiet ones. -/
lemma Quiet.hidden_cons (h : Quiet later) (line : List Char) : Hidden (line :: later) := by
  intro depth _ known n
  cases n with
  | zero => rfl
  | succ n =>
    rw [List.take_succ_cons, findAgentClauses_within]
    split
    next => rfl
    next hdepth => exact h.search (by omega) known n

/-- Within a member a line that closes no more than it opens may come before hidden ones. -/
lemma Hidden.cons (h : Hidden later) (hbraces : 0 ≤ netBraces line) : Hidden (line :: later) := by
  intro depth hpos known n
  have hdepth : 0 < depth + netBraces line := by omega
  cases n with
  | zero => rfl
  | succ n =>
    rw [List.take_succ_cons, findAgentClauses_within, if_neg (by omega), floorAt_of_pos hdepth]
    exact h _ hdepth known n

lemma Hidden.append (h : Hidden later) {ls : List (List Char)} (hls : ∀ l ∈ ls, 0 ≤ netBraces l) :
    Hidden (ls ++ later) := by
  induction ls with
  | nil => exact h
  | cons l ls ih =>
    have hrest := ih fun l' hl' => hls l' (List.mem_cons_of_mem l hl')
    exact hrest.cons (hls l List.mem_cons_self)

/-- The header of another agent ends the search. -/
lemma Hidden.agent (h : Hidden later) (hagent : Header.startsAgent line = true)
    (hbraces : 0 ≤ netBraces line) : Quiet (line :: later) := by
  refine ⟨fun known n => ?_, h.cons hbraces⟩
  cases n with
  | zero => rfl
  | succ n =>
    rw [List.take_succ_cons, findAgentClauses]
    simp [hagent]

/-- A header whose brace counts hides what follows. -/
lemma Hidden.header (h : Hidden later) (hstarts : Header.starts line = true)
    (hagent : Header.startsAgent line = false) (hbraces : 0 < netBraces line) :
    Quiet (line :: later) := by
  refine ⟨fun known n => ?_, h.cons (by omega)⟩
  cases n with
  | zero => rfl
  | succ n =>
    rw [List.take_succ_cons, findAgentClauses_header hstarts hagent, if_neg (by omega),
      floorAt_of_pos hbraces]
    exact h _ hbraces known n

/-- A header tells nothing by itself, whatever its braces count for. -/
lemma Quiet.header (h : Quiet later) (hstarts : Header.starts line = true)
    (hagent : Header.startsAgent line = false) : Quiet (line :: later) := by
  refine ⟨fun known n => ?_, h.hidden_cons line⟩
  cases n with
  | zero => rfl
  | succ n =>
    rw [List.take_succ_cons, findAgentClauses_header hstarts hagent]
    split
    next => rfl
    next hbraces => exact h.search (by omega) known n

/-- A line without quotes that opens no brace tells nothing. -/
lemma Quiet.quoteless (h : Quiet later) (hread : Header.read? line = none)
    (hquotes : ∀ c ∈ line, isQuote c = false) (hbraces : netBraces line ≤ 0) :
    Quiet (line :: later) := by
  refine ⟨fun known n => ?_, h.hidden_cons line⟩
  cases n with
  | zero => rfl
  | succ n =>
    rw [List.take_succ_cons]
    rcases Int.lt_or_eq_of_le hbraces with hneg | hzero
    · rw [findAgentClauses_ends hread (by omega), AgentClauses.add_of_quoteless hquotes]
    · rw [findAgentClauses_own hread (by omega), hzero, Int.add_zero,
        AgentClauses.add_of_quoteless hquotes]
      exact h.own known n

lemma Quiet.empty (h : Quiet later) : Quiet ([] :: later) :=
  h.quoteless (by decide) (fun _ hc => absurd hc List.not_mem_nil) (Int.le_refl 0)

lemma Quiet.flatMap (h : Quiet later) {α : Type} {f : α → List (List Char)} {xs : List α}
    (hf : ∀ x ∈ xs, ∀ later, Quiet later → Quiet (f x ++ later)) :
    Quiet (xs.flatMap f ++ later) := by
  induction xs with
  | nil => exact h
  | cons x xs ih =>
    have hrest := ih fun y hy => hf y (List.mem_cons_of_mem x hy)
    rw [List.flatMap_cons, List.append_assoc]
    exact hf x List.mem_cons_self _ hrest

/-! ## The whole search -/

/-- The clauses of an agent whose own lines come first, within reach, and are followed by quiet
ones. -/
theorem agentClauses_of_tells {own : List (List Char)} (hown : Tells own {} known)
    (hreach : own.length ≤ agentReach) (hlater : Quiet later) :
    agentClauses [] (own ++ later) = known := by
  obtain ⟨n, hn⟩ := Nat.exists_eq_add_of_le hreach
  have hempty : ∀ ls, findAgentClauses 0 none {} ([] :: ls) = findAgentClauses 0 none {} ls := by
    intro ls
    have hbraces : netBraces [] = 0 := rfl
    rw [findAgentClauses_own (by decide) (by rw [hbraces]; decide), hbraces,
      AgentClauses.add_of_quoteless fun _ h => absurd h List.not_mem_nil]
    rfl
  rw [agentClauses, hempty, hn, hown, hlater.own]

/-- The description of a tool whose body is a description and a line that tells nothing. -/
theorem toolDescription_described {line : List Char} {value : String}
    (hread : Header.read? line = none) (h : clause? "description" line = some value)
    (later : List (List Char)) : toolDescription [] (line :: later) = some value := by
  have htake : (line :: later).take toolReach = line :: later.take 4 := List.take_succ_cons
  have hrest : clause? "description" [] = none := rfl
  rw [toolDescription, hrest, htake, findToolDescription, starts_eq_false hread, h]
  rfl

/-- A tool without a description takes none from the lines after it. -/
theorem toolDescription_bare {body close : List Char} (hbody : Header.read? body = none)
    (hquotes : ∀ c ∈ body, isQuote c = false) (hread : Header.read? close = none)
    (hquotes' : ∀ c ∈ close, isQuote c = false) (hclose : onlyCloses close = true)
    (later : List (List Char)) : toolDescription [] (body :: close :: later) = none := by
  have htake : (body :: close :: later).take toolReach = body :: close :: later.take 3 := by
    rw [toolReach, List.take_succ_cons, List.take_succ_cons]
  have hrest : clause? "description" [] = none := rfl
  rw [toolDescription, hrest, htake, findToolDescription, starts_eq_false hbody,
    clause?_of_quoteless hquotes, findToolDescription, starts_eq_false hread,
    clause?_of_quoteless hquotes', hclose]
  simp

end AgentScript.Script
