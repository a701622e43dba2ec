import AgentScript.Proofs.Script.Meeting
import AgentScript.Proofs.Script.Ownership

/-!
# Where the clauses of an agent stand

The search for the clauses of an agent knows nothing of scopes.  It counts by how much each line
changes the number of open braces, and remembers at which count the member began that it is passing
over.  This module says what that count is worth: as long as the agent's brace is open, the count is
the number of braces that are open within it, and where the search learns from a line, none of these
belongs to a header (`Tracks`).  So what it learns is the agent's own.

A count of a whole line cannot tell a line that closes the agent's brace and opens another one from a
line that does neither.  Behind such a line the search goes on in whatever was opened.  That, and
parameters of tools in which braces or quotes stand, are the only ways to a clause that is not the
agent's own (`clauses_own_or_reopened`, `clause_from_tool`).
-/

namespace AgentScript

/-- The clauses that are recorded of an agent. -/
def AgentDecl.clauses (d : AgentDecl) : List (String × Option String) :=
  [("description", d.description), ("version", d.version),
    ("provider", d.model.bind (·.provider)), ("name", d.model.bind (·.name))]

namespace Script

open AgentScript.Text

/-! ## The lines that are learnt from -/

/-- The clauses that are known of an agent. -/
def AgentClauses.values (known : AgentClauses) : List (String × Option String) :=
  [("description", known.description), ("version", known.version),
    ("provider", known.model.bind (·.provider)), ("name", known.model.bind (·.name))]

/-- The lines that the search for the clauses of an agent learns from, each with its number, if the
first line has the given one. -/
def ownLinesFrom (n : Nat) (depth : Int) (skipping : Option Int) :
    List (List Char) → List (Nat × List Char)
  | [] => []
  | line :: later =>
    if skipping.isNone && Header.startsAgent line then []
    else
      let opens := skipping.isNone && Header.starts line
      let own := if skipping.isNone && !opens then [(n, line)] else []
      let floor := if opens then some depth else skipping
      let depth := depth + netBraces line
      own ++ if depth < 0 then [] else ownLinesFrom (n + 1) depth (floor.filter (· < depth)) later

/-- The last clause with the given key in some lines: the number of the line, and the value. -/
def lastClause? (key : String) : List (Nat × List Char) → Option (Nat × String)
  | [] => none
  | (n, line) :: later => (lastClause? key later).or ((clause? key line).map (n, ·))

/-- What the search knows in the end is what the lines tell that it learns from. -/
lemma findAgentClauses_eq_foldl (n : Nat) (depth : Int) (skipping : Option Int)
    (known : AgentClauses) (ls : List (List Char)) :
    findAgentClauses depth skipping known ls =
      (ownLinesFrom n depth skipping ls).foldl (fun known line => known.add line.2) known := by
  induction ls generalizing n depth skipping known with
  | nil => rfl
  | cons line later ih =>
    rw [findAgentClauses, ownLinesFrom]
    by_cases hagent : (skipping.isNone && Header.startsAgent line) = true
    · rw [if_pos hagent, if_pos hagent]
      rfl
    · rw [if_neg hagent, if_neg hagent]
      dsimp only
      rw [List.foldl_append]
      by_cases hdepth : depth + netBraces line < 0
      · rw [if_pos hdepth, if_pos hdepth]
        split <;> rfl
      · rw [if_neg hdepth, if_neg hdepth, ih (n + 1)]
        congr 1
        split <;> rfl

lemma values_add (known : AgentClauses) (line : List Char) :
    (known.add line).values = known.values.map fun v => (v.1, (clause? v.1 line).or v.2) := by
  have hmodel : ∀ (model : Option ModelChoice) (provider name : Option String),
      (AgentClauses.modelWith model provider name).bind (·.provider) =
          provider.or (model.bind (·.provider)) ∧
        (AgentClauses.modelWith model provider name).bind (·.name) =
          name.or (model.bind (·.name)) := by
    intro model provider name
    cases model <;> cases provider <;> cases name <;> exact ⟨rfl, rfl⟩
  simp only [AgentClauses.values, AgentClauses.add, hmodel, List.map_cons, List.map_nil]

/-- Of every clause, the last line that has it counts. -/
lemma values_foldl_add (ls : List (Nat × List Char)) (known : AgentClauses) :
    (ls.foldl (fun known line => known.add line.2) known).values =
      known.values.map fun v => (v.1, ((lastClause? v.1 ls).map (·.2)).or v.2) := by
  induction ls generalizing known with
  | nil => exact (List.map_id' _).symm
  | cons line later ih =>
    rw [List.foldl_cons, ih, values_add, List.map_map]
    apply List.map_congr_left
    intro v _
    dsimp only [Function.comp_apply]
    rw [lastClause?, Option.map_or, Option.or_assoc, Option.map_map]
    cases clause? v.1 line.2 <;> rfl

lemma mem_of_lastClause? {key : String} {ls : List (Nat × List Char)} {found : Nat × String}
    (h : lastClause? key ls = some found) :
    ∃ line, (found.1, line) ∈ ls ∧ clause? key line = some found.2 := by
  induction ls with
  | nil => cases h
  | cons line later ih =>
    rw [lastClause?, Option.or_eq_some_iff] at h
    rcases h with h | ⟨-, h⟩
    · obtain ⟨line', hline', hclause⟩ := ih h
      exact ⟨line', List.mem_cons_of_mem line hline', hclause⟩
    · obtain ⟨value, hclause, rfl⟩ := Option.map_eq_some_iff.1 h
      exact ⟨line.2, List.mem_cons_self, hclause⟩

namespace Occurrence

/-- The lines that the clauses of the agent are learnt from that the header declares. -/
def ownLines (ls : List (List Char)) (m : Occurrence) : List (Nat × List Char) :=
  ownLinesFrom m.line 0 none (m.opening.rest :: (ls.drop m.line).take agentReach)

/-- Where the clause with the given key was captured of the agent that the header declares: the
number of the line, and the value. -/
def captured? (ls : List (List Char)) (key : String) (m : Occurrence) : Option (Nat × String) :=
  lastClause? key (m.ownLines ls)

end Occurrence

/-- **The clauses of an agent** are those that were captured. -/
theorem clauses_of_agentDecl? {ls : List (List Char)} {m : Occurrence} {d : AgentDecl}
    (h : m.agentDecl? ls = some d) : ∀ v ∈ d.clauses, v.2 = (m.captured? ls v.1).map (·.2) := by
  have hvalues := values_foldl_add (m.ownLines ls) {}
  rw [Occurrence.ownLines, ← findAgentClauses_eq_foldl, ← Occurrence.ownLines] at hvalues
  rw [Occurrence.agentDecl?, Opening.agentDecl?] at h
  split at h
  next name =>
    cases h
    have hclauses : (agentClauses m.opening.rest (ls.drop m.line)).values =
        ["description", "version", "provider", "name"].map fun key =>
          (key, (m.captured? ls key).map (·.2)) := by
      rw [agentClauses, hvalues]
      simp [AgentClauses.values, Occurrence.captured?]
    intro v hv
    have hmem : v ∈ (agentClauses m.opening.rest (ls.drop m.line)).values := hv
    rw [hclauses, List.mem_map] at hmem
    obtain ⟨key, -, rfl⟩ := hmem
    rfl
  next => cases h

/-! ## Stacks whose outermost braces belong to no header -/

/-- The outermost braces of a stack, so many of them, belong to no header. -/
def Bare (k : Nat) (stack : List OpenBrace) : Prop :=
  ∀ b ∈ stack.drop (stack.length - k), b.header = none

variable {stack inner : List OpenBrace} {bs back : List Brace}

lemma Bare.of_forall (h : ∀ b ∈ stack, b.header = none) (k : Nat) : Bare k stack :=
  fun b hb => h b (List.mem_of_mem_drop hb)

lemma Bare.forall (h : Bare stack.length stack) : ∀ b ∈ stack, b.header = none := by
  rwa [Bare, Nat.sub_self, List.drop_zero] at h

/-- A part of the stack is closed and another one is put on top of it. -/
lemma Bare.append_drop {k g s : Nat} (h : Bare k stack) (hg : g ≤ k)
    (hinner : (∀ b ∈ inner, b.header = none) ∨ g ≤ (stack.drop s).length) :
    Bare g (inner ++ stack.drop s) := by
  intro b hb
  rw [List.drop_append, List.mem_append, List.length_append] at hb
  rcases hb with hb | hb
  · rcases hinner with hinner | hlength
    · exact hinner b (List.mem_of_mem_drop hb)
    · rw [List.drop_of_length_le (by omega)] at hb
      cases hb
  · have hle : stack.length - k ≤ s + (inner.length + (stack.drop s).length - g - inner.length) := by
      rw [List.length_drop]
      omega
    obtain ⟨j, hj⟩ := Nat.exists_eq_add_of_le hle
    rw [List.drop_drop, hj, ← List.drop_drop] at hb
    exact h b (List.mem_of_mem_drop hb)

/-! ## The braces of one line -/

/-- What the search relies on of the braces that are met in a line. -/
structure LineBraces (line : List Char) (bs : List Brace) : Prop where
  net : (bs.map Brace.net).sum = netBraces line
  /-- Without a header at the front, the line has none. -/
  bare : Header.starts line = false → ∀ b ∈ (matching bs).unclosed, b.header = none
  /-- The headers of a line come first, so a line that closes a brace from before has closed them. -/
  closing : (matching bs).strays ≠ [] → ∀ b ∈ (matching bs).unclosed, b.header = none

lemma header_of_mem_tag_nil {line : Nat} {cs : List Char} {b : OpenBrace}
    (h : .opening b ∈ tag line [] cs) : b.header = none := by
  induction cs with
  | nil => cases h
  | cons c cs ih =>
    rw [tag] at h
    split_ifs at h
    · rcases List.mem_cons.1 h with h | h
      · cases h
        rfl
      · exact ih h
    · rcases List.mem_cons.1 h with h | h
      · cases h
      · exact ih h
    · exact ih h

/-- Behind headers, a stray brace closes them all. -/
lemma bare_of_strays_ne_nil {line : Nat} {os : List Opening} {cs : List Char}
    (h : (matching (os.map (·.brace line) ++ tag line [] cs)).strays ≠ []) :
    ∀ b ∈ (matching (os.map (·.brace line) ++ tag line [] cs)).unclosed, b.header = none := by
  have hheads : (matching (os.map (·.brace line))).strays = [] := by
    apply strays_eq_nil
    intro line' hmem
    obtain ⟨o, -, ho⟩ := List.mem_map.1 hmem
    cases ho
  rw [strays_append, hheads, List.nil_append, ne_eq, List.drop_eq_nil_iff, Nat.not_le] at h
  rw [unclosed_append, List.drop_of_length_le h.le, List.append_nil]
  exact fun b hb => header_of_mem_tag_nil (mem_of_mem_unclosed hb)

/-- The braces of headers and of the masked text behind them. -/
lemma lineBraces_of_heads {line : Nat} {cs rest : List Char} {os : List Opening}
    (h : Heads cs os rest) (hplain : ∀ o ∈ os, o.header.HasPlainParams) :
    LineBraces cs (os.map (·.brace line) ++ tag line [] (mask .code rest)) where
  net := by
    rw [← h.tag_mask hplain, sum_net_tag]
    rfl
  bare hstarts := by
    cases h with
    | nil => exact fun b hb => header_of_mem_tag_nil (mem_of_mem_unclosed hb)
    | cons hread hos =>
      rw [Header.starts, hread] at hstarts
      cases hstarts
  closing := bare_of_strays_ne_nil

lemma lineBraces_metLine {line : Nat} {before : List Brace} {text : List Char}
    (hplain : ∀ o ∈ headersOf before text, o.header.HasPlainParams) :
    LineBraces text (metLine line before text) := by
  have hheads := heads_headersOf before text
  rw [metLine, bodyText_eq_mask hheads hplain]
  exact lineBraces_of_heads hheads hplain

/-! ## The count and the stack -/

/-- What the count of the search is worth: how many braces are open behind the agent's own, and that
those outside of the member that is being passed over belong to no header. -/
structure Tracks (bs : List Brace) (depth : Int) (skipping : Option Int) : Prop where
  depth_eq : depth = (bs.map Brace.net).sum
  depth_nonneg : 0 ≤ depth
  floor : ∀ f ∈ skipping, 0 ≤ f ∧ f < depth
  bare : (matching bs).strays = [] →
    Bare (skipping.getD depth).toNat (matching bs).unclosed

variable {depth : Int} {skipping : Option Int} {line : List Char}

lemma tracks_nil : Tracks [] 0 none where
  depth_eq := rfl
  depth_nonneg := Int.le_refl 0
  floor _ h := by cases h
  bare _ := Bare.of_forall (fun _ h => by cases h) _

/-- Without stray braces, as many braces are open as the count says. -/
lemma Tracks.length_unclosed (h : Tracks bs depth skipping) (hstrays : (matching bs).strays = []) :
    depth = (matching bs).unclosed.length := by
  rw [h.depth_eq, sum_net, hstrays, List.length_nil, Int.natCast_zero, Int.sub_zero]

/-- A member is passed over at least down to the depth at which it began. -/
lemma getD_floor_le (hown : ¬ (skipping = none ∧ Header.starts line = false))
    (depth depth' : Int) :
    ((if skipping.isNone && Header.starts line then some depth else skipping).filter
      (· < depth')).getD depth' ≤ skipping.getD depth := by
  have hfloor : (if skipping.isNone && Header.starts line then some depth else skipping) =
      some (skipping.getD depth) := by
    cases skipping with
    | none =>
      rw [if_pos]
      · rfl
      · simpa using hown
    | some f => rfl
  rw [hfloor, Option.filter_some]
  split_ifs with hlt
  · exact Int.le_refl _
  · rw [decide_eq_true_eq, Int.not_lt] at hlt
    exact hlt

/-- **One line**: the search stays on the track as long as its count does not fall below zero. -/
theorem Tracks.step (h : Tracks bs depth skipping) (hline : LineBraces line back)
    (hdepth : 0 ≤ depth + netBraces line) :
    Tracks (bs ++ back) (depth + netBraces line)
      ((if skipping.isNone && Header.starts line then some depth else skipping).filter
        (· < depth + netBraces line)) where
  depth_eq := by rw [List.map_append, List.sum_append, ← h.depth_eq, hline.net]
  depth_nonneg := hdepth
  floor f hf := by
    obtain ⟨hf, hlt⟩ := Option.mem_filter_iff.1 hf
    refine ⟨?_, of_decide_eq_true hlt⟩
    split at hf
    · cases hf
      exact h.depth_nonneg
    · exact (h.floor f hf).1
  bare hstrays := by
    have hdepth' : depth + netBraces line = (matching (bs ++ back)).unclosed.length := by
      rw [h.depth_eq, ← hline.net, ← List.sum_append, ← List.map_append, sum_net, hstrays,
        List.length_nil, Int.natCast_zero, Int.sub_zero]
    rw [strays_append, List.append_eq_nil_iff] at hstrays
    have hbare := h.bare hstrays.1
    have hlength := h.length_unclosed hstrays.1
    rw [unclosed_append] at hdepth' ⊢
    by_cases hown : skipping = none ∧ Header.starts line = false
    · -- At the agent's own level, and the line opens no member.
      obtain ⟨rfl, hstarts⟩ := hown
      rw [Option.getD_none, hlength, Int.toNat_natCast] at hbare
      apply Bare.of_forall
      intro b hb
      rcases List.mem_append.1 hb with hb | hb
      · exact hline.bare hstarts b hb
      · exact hbare.forall b (List.mem_of_mem_drop hb)
    · -- A member is passed over, which began at the depth `skipping.getD depth`.
      have hle : skipping.getD depth ≤ depth := by
        cases skipping with
        | none => exact Int.le_refl depth
        | some f => exact Int.le_of_lt (h.floor f rfl).2
      have hfloor := getD_floor_le hown depth (depth + netBraces line)
      refine hbare.append_drop (Int.toNat_le_toNat hfloor) ?_
      by_cases hcloses : (matching back).strays = []
      · right
        rw [hcloses, List.length_nil, List.drop_zero]
        omega
      · exact .inl (hline.closing hcloses)

/-- Where the search learns, the braces that are open within the agent belong to no header; or the
agent has been closed, and at least as many braces have been opened instead. -/
lemma Tracks.own (h : Tracks bs depth none) :
    ((matching bs).strays = [] ∧ ∀ b ∈ (matching bs).unclosed, b.header = none) ∨
      ((matching bs).strays ≠ [] ∧
        (matching bs).strays.length ≤ (matching bs).unclosed.length) := by
  by_cases hstrays : (matching bs).strays = []
  · have hbare := h.bare hstrays
    rw [Option.getD_none, h.length_unclosed hstrays, Int.toNat_natCast] at hbare
    exact .inl ⟨hstrays, hbare.forall⟩
  · have hsum := h.depth_nonneg
    rw [h.depth_eq, sum_net] at hsum
    exact .inr ⟨hstrays, by omega⟩

/-- **Some lines**: the search is on the track wherever it learns something. -/
theorem tracks_of_mem_ownLinesFrom {n : Nat} {before : List Brace} {ls : List (List Char)}
    (h : Tracks bs depth skipping)
    (hplain : ∀ m ∈ occurrencesFrom n before ls, m.header.HasPlainParams) {e : Nat × List Char}
    (he : e ∈ ownLinesFrom n depth skipping ls) :
    ∃ i d, e.1 = n + i ∧ ls[i]? = some e.2 ∧
      Tracks (bs ++ metFrom n before (ls.take i)) d none := by
  induction ls generalizing n before bs depth skipping with
  | nil => cases he
  | cons line later ih =>
    have hheaders := hasPlainParams_headersOf hplain
    rw [ownLinesFrom] at he
    obtain ⟨-, he⟩ := List.mem_ite_nil_left.1 he
    rcases List.mem_append.1 he with he | he
    · obtain ⟨hlevel, hfirst⟩ := List.mem_ite_nil_right.1 he
      rw [List.mem_singleton] at hfirst
      rw [Bool.and_eq_true, Option.isNone_iff_eq_none] at hlevel
      obtain ⟨rfl, -⟩ := hlevel
      refine ⟨0, depth, by rw [hfirst]; rfl, by rw [hfirst]; rfl, ?_⟩
      rwa [List.take_zero, metFrom, List.append_nil]
    · obtain ⟨hdepth, he⟩ := List.mem_ite_nil_left.1 he
      have hlater : ∀ m ∈ occurrencesFrom (n + 1) (before ++ metLine n before line) later,
          m.header.HasPlainParams := by
        intro m hm
        rw [metLine_eq hheaders] at hm
        exact hplain m (List.mem_append_right _ hm)
      have hbraces : LineBraces line (metLine n before line) := lineBraces_metLine hheaders
      obtain ⟨i, d, hnumber, hget, htracks⟩ :=
        ih (h.step hbraces (Int.not_lt.1 hdepth)) hlater he
      refine ⟨i + 1, d, by rw [hnumber]; omega, hget, ?_⟩
      rwa [List.take_succ_cons, metFrom, ← List.append_assoc]

/-! ## The agent's brace -/

lemma Heads.tail {cs rest : List Char} {front back : List Opening} {o : Opening}
    (h : Heads cs (front ++ o :: back) rest) : Heads o.rest back rest := by
  induction front generalizing cs with
  | nil =>
    cases h with
    | cons _ hos => exact hos
  | cons o' front ih =>
    cases h with
    | cons _ hos => exact ih hos

lemma occurrencesFrom_append (n : Nat) (before : List Brace) (xs ys : List (List Char)) :
    occurrencesFrom n before (xs ++ ys) = occurrencesFrom n before xs ++
      occurrencesFrom (n + xs.length) (before ++ bracesFrom n before xs) ys := by
  induction xs generalizing n before with
  | nil => simp [occurrencesFrom, bracesFrom]
  | cons x xs ih =>
    rw [List.cons_append, occurrencesFrom, occurrencesFrom, ih, bracesFrom, List.length_cons,
      List.append_assoc, List.append_assoc, Nat.add_assoc, Nat.add_comm 1]

variable {text : String} {m : Occurrence}

lemma metFrom_scriptLines (h : HasPlainTools text) :
    metFrom 1 [] (scriptLines text) = braces text := metFrom_eq h

/-- The line of a header that is met: behind the header's brace, the braces of the rest of the line. -/
lemma exists_lineBraces (h : HasPlainTools text) (hm : m ∈ metHeaders text) :
    ∃ xs t ys bs, scriptLines text = xs ++ t :: ys ∧ m.line = 1 + xs.length ∧
      metFrom 1 [] xs ++ metLine m.line (metFrom 1 [] xs) t =
        m.before ++ .opening m.openBrace :: bs ∧
      LineBraces m.opening.rest bs ∧
      ∀ m' ∈ occurrencesFrom (m.line + 1) (m.before ++ .opening m.openBrace :: bs) ys,
        m'.header.HasPlainParams := by
  obtain ⟨xs, t, ys, front, back, hlines, hline, hheaders, hbefore⟩ :=
    exists_of_mem_occurrencesIn_metFrom hm
  rw [List.nil_append] at hheaders hbefore
  have hplain : ∀ m ∈ occurrencesFrom 1 [] (scriptLines text), m.header.HasPlainParams := h
  rw [hlines, occurrencesFrom_append, List.nil_append, ← hline] at hplain
  have hxs : metFrom 1 [] xs = bracesFrom 1 [] xs :=
    metFrom_eq fun m hm => hplain m (List.mem_append_left _ hm)
  rw [← hxs] at hplain
  have hfirst := hasPlainParams_headersOf fun m hm => hplain m (List.mem_append_right _ hm)
  have hheads := heads_headersOf (metFrom 1 [] xs) t
  have hbody := bodyText_eq_mask hheads hfirst
  rw [hheaders] at hheads hbody
  generalize restOf t (front ++ m.opening :: back) = left at hheads hbody
  have hmet : metFrom 1 [] xs ++ metLine m.line (metFrom 1 [] xs) t =
      m.before ++ .opening m.openBrace ::
        (back.map (·.brace m.line) ++ tag m.line [] (mask .code left)) := by
    rw [metLine, hheaders, hbody, hbefore, List.map_append, List.map_cons]
    simp [Opening.brace, Occurrence.openBrace]
  refine ⟨xs, t, ys, _, hlines, hline, hmet, lineBraces_of_heads hheads.tail fun o ho => ?_, ?_⟩
  · apply hfirst
    rw [hheaders]
    exact List.mem_append_right _ (List.mem_cons_of_mem _ ho)
  · intro m' hm'
    rw [← hmet, metLine_eq hfirst] at hm'
    exact hplain m' (List.mem_append_right _ (List.mem_append_right _ hm'))

/-- Where the search for the clauses of an agent learns, it is on the track behind the agent's brace. -/
lemma tracks_of_mem_ownLines (h : HasPlainTools text) (hm : m ∈ metHeaders text)
    {e : Nat × List Char} (he : e ∈ m.ownLines (scriptLines text)) :
    m.textAt? (scriptLines text) e.1 = some e.2 ∧
      (e.1 = m.line ∨ ∃ bs d, metBefore text e.1 = m.before ++ .opening m.openBrace :: bs ∧
        Tracks bs d none) := by
  obtain ⟨xs, t, ys, bs, hlines, hline, hmet, hrest, hplain⟩ := exists_lineBraces h hm
  have hdrop : (scriptLines text).drop m.line = ys := by
    rw [hlines, hline, Nat.add_comm, ← List.drop_drop, List.drop_left, List.drop_one, List.tail_cons]
  rw [Occurrence.ownLines, hdrop, ownLinesFrom] at he
  obtain ⟨-, he⟩ := List.mem_ite_nil_left.1 he
  rcases List.mem_append.1 he with he | he
  · obtain ⟨-, he⟩ := List.mem_ite_nil_right.1 he
    rw [List.mem_singleton] at he
    rw [he, Occurrence.textAt?, if_pos rfl]
    exact ⟨rfl, .inl rfl⟩
  · obtain ⟨hdepth, he⟩ := List.mem_ite_nil_left.1 he
    rw [← List.take_append_drop agentReach ys, occurrencesFrom_append] at hplain
    obtain ⟨i, d, hnumber, hget, htracks⟩ := tracks_of_mem_ownLinesFrom
      (tracks_nil.step hrest (Int.not_lt.1 hdepth))
      (fun m' hm' => hplain m' (List.mem_append_left _ hm')) he
    rw [List.nil_append] at htracks
    rw [List.getElem?_take] at hget
    obtain ⟨hi, hget⟩ := Option.ite_none_right_eq_some.1 hget
    rw [List.take_take, Nat.min_eq_left hi.le] at htracks
    have hlt : m.line < e.1 := by omega
    refine ⟨?_, .inr ⟨_, d, ?_, htracks⟩⟩
    · rw [Occurrence.textAt?, if_neg hlt.ne', if_pos hlt, hnumber, ← hget, ← hdrop,
        List.getElem?_drop]
      congr 1
      omega
    · have htake : (xs ++ t :: ys).take (e.1 - 1) = xs ++ t :: ys.take i := by
        rw [show e.1 - 1 = xs.length + (i + 1) by omega, List.take_length_add_append,
          List.take_succ_cons]
      rw [metBefore, hlines, htake, metFrom_append, List.nil_append, metFrom, ← List.append_assoc,
        ← hline, hmet, List.append_assoc, List.cons_append]

/-- No brace that ends a header is met twice. -/
lemma opening_not_mem (h : HasPlainTools text) {n : Nat} {front back : List Brace} {b : OpenBrace}
    (hmet : metBefore text n = front ++ .opening b :: back) (hb : b.header.isSome = true) :
    .opening b ∉ front ∧ .opening b ∉ back := by
  obtain ⟨line, o, rfl⟩ : ∃ line o, b = ⟨line, some o⟩ := by
    obtain ⟨line, header⟩ := b
    obtain ⟨o, rfl⟩ := Option.isSome_iff_exists.1 hb
    exact ⟨line, o, rfl⟩
  have hpairwise := pairwise_place?_bracesFrom 1 [] (scriptLines text)
  rw [← braces, ← metFrom_scriptLines h, ← List.take_append_drop (n - 1) (scriptLines text),
    metFrom_append, List.filterMap_append] at hpairwise
  have hbefore := (List.pairwise_append.1 hpairwise).1
  rw [← metBefore, hmet, List.filterMap_append, List.pairwise_append, List.filterMap_cons] at hbefore
  have hplace : (Brace.opening ⟨line, some o⟩).place? = some ⟨line, o.column⟩ := rfl
  rw [hplace] at hbefore
  constructor
  · intro hmem
    exact (hbefore.2.2 _ (List.mem_filterMap.2 ⟨_, hmem, hplace⟩) _ List.mem_cons_self).ne rfl
  · intro hmem
    exact ((List.pairwise_cons.1 hbefore.2.1).1 _ (List.mem_filterMap.2 ⟨_, hmem, hplace⟩)).ne rfl

namespace Occurrence

/-- The agent of the header is open where a line begins, and no body of a member or of a type is open
within it. -/
def AtOwnLevel (text : String) (m : Occurrence) (n : Nat) : Prop :=
  m.openBrace ∈ standing text n ∧
    ∀ b ∈ (standing text n).takeWhile (· != m.openBrace), b.header = none ∨ b.agent?.isSome

/-- The agent of the header is closed where a line begins, and more braces are open there than around
the agent. -/
def Reopened (text : String) (m : Occurrence) (n : Nat) : Prop :=
  m.openBrace ∉ standing text n ∧
    (matching m.before).unclosed.length < (standing text n).length

end Occurrence

lemma standing_eq {n : Nat} (hmet : metBefore text n = m.before ++ .opening m.openBrace :: bs) :
    standing text n = (matching bs).unclosed ++
      (m.openBrace :: (matching m.before).unclosed).drop (matching bs).strays.length := by
  rw [standing, hmet, List.append_cons, unclosed_append, unclosed_append_opening]

/-- What the track says of a line that is learnt from. -/
lemma Tracks.atOwnLevel_or_reopened {n : Nat} {d : Int} (h : Tracks bs d none)
    (hplain : HasPlainTools text)
    (hmet : metBefore text n = m.before ++ .opening m.openBrace :: bs) :
    m.AtOwnLevel text n ∨ m.Reopened text n := by
  rw [Occurrence.AtOwnLevel, Occurrence.Reopened, standing_eq hmet]
  rcases h.own with ⟨hstrays, hbare⟩ | ⟨hstrays, hlength⟩
  · rw [hstrays, List.length_nil, List.drop_zero]
    refine .inl ⟨List.mem_append_right _ List.mem_cons_self, fun b hb => .inl (hbare b ?_)⟩
    have hne : ∀ b ∈ (matching bs).unclosed, (b != m.openBrace) = true := by
      intro b hb
      rw [bne_iff_ne]
      rintro rfl
      cases hbare m.openBrace hb
    rw [List.takeWhile_append_of_pos hne, List.takeWhile_cons_of_neg (by simp),
      List.append_nil] at hb
    exact hb
  · obtain ⟨k, hk⟩ := Nat.exists_eq_succ_of_ne_zero (mt List.length_eq_zero_iff.1 hstrays)
    rw [hk] at hlength ⊢
    rw [List.drop_succ_cons]
    refine .inr ⟨?_, ?_⟩
    · obtain ⟨hfront, hback⟩ := opening_not_mem hplain hmet rfl
      intro hmem
      rcases List.mem_append.1 hmem with hmem | hmem
      · exact hback (mem_of_mem_unclosed hmem)
      · exact hfront (mem_of_mem_unclosed (List.mem_of_mem_drop hmem))
    · rw [List.length_append, List.length_drop]
      omega

/-- Where every clause that is recorded of an agent was captured: in the rest of its header's line, or
in a later line of which something is known. -/
def Captured (text : String) (Allowed : Occurrence → Nat → Prop) : Prop :=
  ∀ m ∈ metHeaders text, ∀ d ∈ m.agentDecl? (scriptLines text), ∀ clause ∈ d.clauses,
    ∀ value ∈ clause.2, ∃ found ∈ m.captured? (scriptLines text) clause.1, found.2 = value ∧
      (∃ t ∈ m.textAt? (scriptLines text) found.1, clause? clause.1 t = some value) ∧
      (found.1 = m.line ∨ Allowed m found.1)

/-- What is known of the clauses of all agents. -/
structure ClausesByBraces (text : String) : Prop where
  /-- Every agent that is recorded comes from a header. -/
  agents : (outline text).agents =
    (metHeaders text).filterMap (Occurrence.agentDecl? (scriptLines text))
  /-- The braces that are open where a line begins are the scopes of the reader there. -/
  stack : ∀ n, (readBefore text n).scopes.map Scope.bare = scopesOf (standing text n)
  /-- A clause from a later line is the agent's own, or the agent was closed on a line that opened
  something else. -/
  captured : Captured text fun m n => m.AtOwnLevel text n ∨ m.Reopened text n

/-- **Where clauses come from**: each from the agent's own level, except where a line closes the agent
and opens at least as many braces. -/
theorem clauses_own_or_reopened (text : String) (h : HasPlainTools text) : ClausesByBraces text where
  agents := agents_outline text
  stack := scopes_readBefore text
  captured := by
    intro m hm d hd clause hclause value hvalue
    rw [Option.mem_def, clauses_of_agentDecl? hd clause hclause, Option.map_eq_some_iff] at hvalue
    obtain ⟨found, hfound, rfl⟩ := hvalue
    obtain ⟨line, hmem, htext⟩ := mem_of_lastClause? hfound
    obtain ⟨htextAt, hplace⟩ := tracks_of_mem_ownLines h hm hmem
    refine ⟨found, hfound, rfl, ⟨line, htextAt, htext⟩, hplace.imp_right ?_⟩
    rintro ⟨bs, d, hmet, htracks⟩
    exact htracks.atOwnLevel_or_reopened h hmet

/-- An agent with a tool, a pair of braces of its own, and a description behind both. -/
def ownLevelText : String :=
  "agent A \x7b\n  tool t() \x7b\n    description: \"of the tool\"\n  \x7d\n  model \x7b\n" ++
    "    name: \"m\"\n  \x7d\n  description: \"of the agent\"\n\x7d\n"

theorem clauses_own_or_reopened_ownLevelText :
    HasPlainTools ownLevelText ∧ ClausesByBraces ownLevelText ∧
      (outline ownLevelText).agents.map AgentDecl.clauses =
        [[("description", some "of the agent"), ("version", none), ("provider", none),
          ("name", some "m")]] :=
  have hplain : HasPlainTools ownLevelText := by decide +kernel
  ⟨hplain, clauses_own_or_reopened ownLevelText hplain, by decide +kernel⟩

/-- A tool whose parameters hold a quote, which hides the tool's brace from the count. -/
def quotedParamsText : String :=
  "agent A \x7b\n  tool t(a: 'x) \x7b\n    description: \"of the tool\"\n  \x7d\n\x7d\n"

/-- A clause may come from the body of a tool. -/
theorem clause_from_tool : ¬ ∀ text, Captured text (Occurrence.AtOwnLevel text) := by
  intro h
  have hcaptured := h quotedParamsText
  revert hcaptured
  unfold Captured Occurrence.AtOwnLevel
  decide +kernel

end Script

end AgentScript
