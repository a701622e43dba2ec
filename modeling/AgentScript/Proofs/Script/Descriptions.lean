import AgentScript.Proofs.Script.Clauses
import AgentScript.Proofs.Script.Meeting

/-!
# Where the description of a tool stands

The description of a tool is looked for in the rest of its header's line and in the lines after it.
The search counts no braces in these lines.  It ends at a line that begins with a header, and behind
a line that closes a brace and opens none; so it goes past the brace that closes the tool if that
brace stands on a line with an opening one.

Where the description was found is a *spot*: a line, the value, and the text behind it
(`findToolSpot`, `toolDescription_eq_map`).  A description that belongs to the tool has its spot where
the tool's brace is still open.  For every script this holds unless the tool was closed on the line of
the spot itself, on the header's line, or on a line that also opens a brace
(`descriptions_within_or_unseen`), and in the last two cases the description may come from a member
that follows (`description_from_outside`).
-/

namespace AgentScript.Script

open AgentScript.Text

/-! ## Where a clause stands in its line -/

variable {key : String} {cs value behind : List Char}

/-- The value of the clause that the text begins with, and what follows it, the closing quote first. -/
def clauseHereWithin (key : String) (cs : List Char) : Option (List Char × List Char) := do
  let rest ← after? (key.toList ++ [':']) cs
  let value ← quotedValue (dropBlanks rest)
  return (value, (dropBlanks rest).drop (value.length + 1))

/-- The value of the first clause with the given key in a line, and what follows it. -/
def clauseWithin (key : String) : List Char → Option (List Char × List Char)
  | [] => none
  | c :: cs => (clauseHereWithin key (c :: cs)).or (clauseWithin key cs)

lemma clauseHere_eq_map (key : String) (cs : List Char) :
    clauseHere key cs = (clauseHereWithin key cs).map Prod.fst := by
  rw [clauseHere, clauseHereWithin]
  cases after? (key.toList ++ [':']) cs with
  | none => rfl
  | some rest =>
    simp only [Option.bind_eq_bind, Option.bind_some]
    cases quotedValue (dropBlanks rest) <;> rfl

lemma clauseText_eq_map (key : String) (cs : List Char) :
    clauseText key cs = (clauseWithin key cs).map Prod.fst := by
  induction cs with
  | nil => rfl
  | cons c cs ih =>
    rw [clauseText, clauseWithin, clauseHere_eq_map, ih]
    cases clauseHereWithin key (c :: cs) <;> rfl

lemma clause?_eq_map (key : String) (line : List Char) :
    clause? key line = (clauseWithin key line).map fun found => String.ofList found.1 := by
  rw [clause?, clauseText_eq_map, Option.map_map]
  rfl

/-- What is found is a part of the line. -/
lemma exists_of_clauseWithin (h : clauseWithin key cs = some (value, behind)) :
    ∃ before, cs = before ++ value ++ behind := by
  induction cs with
  | nil => cases h
  | cons c cs ih =>
    rw [clauseWithin, Option.or_eq_some_iff] at h
    rcases h with h | ⟨-, h⟩
    · rw [clauseHereWithin] at h
      simp only [Option.bind_eq_bind, Option.bind_eq_some_iff, Option.pure_def, Option.some.injEq,
        Prod.mk.injEq] at h
      obtain ⟨rest, hafter, found, hquoted, rfl, rfl⟩ := h
      obtain ⟨blanks, -, hblanks⟩ := exists_dropBlanks rest
      obtain ⟨q, d, tail, hdrop, -, rfl⟩ := exists_of_quotedValue hquoted
      have htail : tail = tail.takeWhile (!isQuote ·) ++ tail.dropWhile (!isQuote ·) :=
        List.takeWhile_append_dropWhile.symm
      have hbehind : (q :: d :: tail).drop ((d :: tail.takeWhile (!isQuote ·)).length + 1) =
          tail.dropWhile (!isQuote ·) := by
        rw [List.length_cons, List.drop_succ_cons, List.drop_succ_cons]
        nth_rewrite 2 [htail]
        rw [List.drop_left]
      refine ⟨key.toList ++ ':' :: (blanks ++ [q]), ?_⟩
      rw [hdrop, hbehind, after?_eq_some_iff.1 hafter, hblanks, hdrop]
      nth_rewrite 1 [htail]
      simp
    · obtain ⟨before, hcs⟩ := ih h
      exact ⟨c :: before, by rw [hcs]; rfl⟩

/-! ## Where the search finds a description -/

/-- A value in a line, and the text behind it. -/
structure Spot where
  line : Nat
  value : List Char
  behind : List Char
  deriving DecidableEq, Repr, Inhabited

/-- Where the first description stands that a tool may take for its own in the given lines, the first
of which has the given number. -/
def findToolSpot (n : Nat) : List (List Char) → Option Spot
  | [] => none
  | line :: later =>
    if Header.starts line then none
    else
      match clauseWithin "description" line with
      | some (value, behind) => some ⟨n, value, behind⟩
      | none => if onlyCloses line then none else findToolSpot (n + 1) later

/-- Where the description of a tool stands, whose header's line has the given number and rest. -/
def toolSpot (n : Nat) (rest : List Char) (later : List (List Char)) : Option Spot :=
  match clauseWithin "description" rest with
  | some (value, behind) => some ⟨n, value, behind⟩
  | none => if netBraces rest < 0 then none else findToolSpot (n + 1) (later.take toolReach)

lemma findToolDescription_eq_map (n : Nat) (ls : List (List Char)) :
    findToolDescription ls = (findToolSpot n ls).map (String.ofList ·.value) := by
  induction ls generalizing n with
  | nil => rfl
  | cons line later ih =>
    rw [findToolDescription, findToolSpot, clause?_eq_map]
    by_cases hstarts : Header.starts line = true
    · rw [if_pos hstarts, if_pos hstarts]
      rfl
    · rw [if_neg hstarts, if_neg hstarts]
      cases clauseWithin "description" line with
      | some found => rfl
      | none =>
        dsimp only [Option.map_none]
        by_cases hcloses : onlyCloses line = true
        · rw [if_pos hcloses, if_pos hcloses]
          rfl
        · rw [if_neg hcloses, if_neg hcloses, ih]

/-- **The description of a tool** is the value at its spot. -/
theorem toolDescription_eq_map (n : Nat) (rest : List Char) (later : List (List Char)) :
    toolDescription rest later = (toolSpot n rest later).map (String.ofList ·.value) := by
  rw [toolDescription, toolSpot, clause?_eq_map]
  cases clauseWithin "description" rest with
  | some found => rfl
  | none =>
    dsimp only [Option.map_none]
    by_cases hbraces : netBraces rest < 0
    · rw [if_pos hbraces, if_pos hbraces]
      rfl
    · rw [if_neg hbraces, if_neg hbraces, findToolDescription_eq_map]

/-- The search passes over lines that begin with no header and close no brace without opening one. -/
lemma exists_of_findToolSpot {n : Nat} {ls : List (List Char)} {spot : Spot}
    (h : findToolSpot n ls = some spot) :
    n ≤ spot.line ∧ (∃ t ∈ ls[spot.line - n]?, spot.value ++ spot.behind <:+ t) ∧
      ∀ k, n ≤ k → k < spot.line →
        ∃ t ∈ ls[k - n]?, Header.starts t = false ∧ onlyCloses t = false := by
  induction ls generalizing n with
  | nil => cases h
  | cons line later ih =>
    rw [findToolSpot] at h
    obtain ⟨hstarts, h⟩ := Option.ite_none_left_eq_some.1 h
    rw [Bool.not_eq_true] at hstarts
    cases hclause : clauseWithin "description" line with
    | some found =>
      rw [hclause] at h
      cases h
      obtain ⟨before, hline⟩ := exists_of_clauseWithin hclause
      refine ⟨le_rfl, ⟨line, ?_, before, ?_⟩, fun k hk hk' => absurd hk' (Nat.not_lt.2 hk)⟩
      · rw [Nat.sub_self, List.getElem?_cons_zero]
        rfl
      · rw [hline, List.append_assoc]
    | none =>
      rw [hclause] at h
      obtain ⟨hcloses, h⟩ := Option.ite_none_left_eq_some.1 h
      rw [Bool.not_eq_true] at hcloses
      obtain ⟨hn, ⟨t, ht, hsuffix⟩, hpassed⟩ := ih h
      have hget : ∀ k, n + 1 ≤ k → (line :: later)[k - n]? = later[k - (n + 1)]? := by
        intro k hk
        obtain ⟨j, rfl⟩ := Nat.exists_eq_add_of_le hk
        have hj : n + 1 + j - n = j + 1 := by omega
        rw [hj, List.getElem?_cons_succ, Nat.add_sub_cancel_left]
      refine ⟨Nat.le_of_succ_le hn, ⟨t, ?_, hsuffix⟩, fun k hk hk' => ?_⟩
      · rwa [hget spot.line hn]
      · rcases Nat.eq_or_lt_of_le hk with rfl | hlt
        · refine ⟨line, ?_, hstarts, hcloses⟩
          rw [Nat.sub_self, List.getElem?_cons_zero]
          rfl
        · rw [hget k hlt]
          exact hpassed k hlt hk'

/-! ## The brace of a tool at its spot -/

namespace Occurrence

/-- Where the description of the tool stands that the header declares. -/
def spot? (ls : List (List Char)) (m : Occurrence) : Option Spot :=
  toolSpot m.line m.opening.rest (ls.drop m.line)

/-- The header's brace is still open where a value ends. -/
def OpenAt (text : String) (m : Occurrence) (spot : Spot) : Prop :=
  m.openBrace ∈ standingTo text spot.line spot.behind.length

/-- How the search can go past the brace that closes the tool. -/
inductive ClosedUnseen (text : String) (m : Occurrence) (spot : Spot) : Prop
  /-- The tool is closed on the line of the description, in front of it. -/
  | onItsLine (hopen : spot.line = m.line ∨ m.openBrace ∈ standing text spot.line)
      (hclosed : ¬ m.OpenAt text spot)
  /-- The tool is closed on the line of its header, the rest of which closes no more braces than it
  opens. -/
  | onHeaderLine (hlater : m.line < spot.line) (hclosed : m.openBrace ∉ standing text (m.line + 1))
      (hbraces : 0 ≤ netBraces m.opening.rest)
  /-- The tool is closed on a line in between that also opens a brace. -/
  | between {k : Nat} {t : List Char} (hlater : m.line < k) (hbefore : k < spot.line)
      (hopen : m.openBrace ∈ standing text k) (hclosed : m.openBrace ∉ standing text (k + 1))
      (hline : (scriptLines text)[k - 1]? = some t) (hopens : '{' ∈ mask .code t)

end Occurrence

/-- Where the description of every tool stands that has one. -/
def Described (text : String) (Allowed : Occurrence → Spot → Prop) : Prop :=
  ∀ m ∈ metHeaders text, ∀ d ∈ m.toolDecl? (scriptLines text), ∀ description ∈ d.description,
    ∃ spot ∈ m.spot? (scriptLines text), String.ofList spot.value = description ∧
      (∃ t ∈ m.textAt? (scriptLines text) spot.line, spot.value ++ spot.behind <:+ t) ∧
      Allowed m spot

lemma description_of_toolDecl? {ls : List (List Char)} {m : Occurrence} {d : ToolDecl}
    (h : m.toolDecl? ls = some d) :
    d.description = toolDescription m.opening.rest (ls.drop m.line) := by
  rw [Occurrence.toolDecl?, Opening.toolDecl?] at h
  split at h
  next =>
    obtain ⟨agent, -, rfl⟩ := Option.map_eq_some_iff.1 h
    rfl
  next => cases h

/-- What is open stays open as long as nothing is closed. -/
lemma exists_closing {bs ys : List Brace} {b : OpenBrace} (hopen : b ∈ (matching bs).unclosed)
    (hclosed : b ∉ (matching (bs ++ ys)).unclosed) : ∃ line, .closing line ∈ ys := by
  by_contra hnone
  push Not at hnone
  rw [unclosed_append, strays_eq_nil hnone, List.length_nil, List.drop_zero] at hclosed
  exact hclosed (List.mem_append_right _ hopen)

lemma mem_of_closing_mem_tag {line line' : Nat} {os : List Opening} {cs : List Char}
    (h : .closing line' ∈ tag line os cs) : '}' ∈ cs := by
  have hchar := List.mem_map_of_mem (f := fun x : Brace => (x.line, x.char)) h
  rw [map_char_tag, List.mem_map] at hchar
  obtain ⟨c, hc, heq⟩ := hchar
  obtain rfl : c = '}' := congrArg Prod.snd heq
  exact List.mem_of_mem_filter hc

/-- What holds of a number and not of a later one ceases to hold somewhere in between. -/
lemma exists_last {P : Nat → Prop} {a b : Nat} (hab : a ≤ b) (ha : P a) (hb : ¬ P b) :
    ∃ k, a ≤ k ∧ k < b ∧ P k ∧ ¬ P (k + 1) := by
  induction b, hab using Nat.le_induction with
  | base => exact absurd ha hb
  | succ b hab ih =>
    by_cases h : P b
    · exact ⟨b, hab, Nat.lt_succ_self b, h, hb⟩
    · obtain ⟨k, hk, hkb, hlast⟩ := ih h
      exact ⟨k, hk, Nat.lt_succ_of_lt hkb, hlast⟩

/-- Where the search goes past a line that closes the tool, the line also opens a brace. -/
lemma mem_mask_of_closed {text : String} {k : Nat} {t : List Char} {b : OpenBrace} (hk : 0 < k)
    (hline : (scriptLines text)[k - 1]? = some t) (hstarts : Header.starts t = false)
    (hcloses : onlyCloses t = false) (hopen : b ∈ standing text k)
    (hclosed : b ∉ standing text (k + 1)) : '{' ∈ mask .code t := by
  rw [standing, metBefore_succ text k hk, hline, Option.map_some, Option.getD_some,
    metLine_of_starts_eq_false hstarts] at hclosed
  obtain ⟨line, hclosing⟩ := exists_closing hopen hclosed
  have hbrace := mem_of_closing_mem_tag hclosing
  simpa [onlyCloses, hbrace] using hcloses

variable (text : String)

/-- Where the tool was closed before its spot, the search did not see it. -/
lemma closedUnseen {m : Occurrence} {spot : Spot}
    (h : m.spot? (scriptLines text) = some spot) :
    (∃ t ∈ m.textAt? (scriptLines text) spot.line, spot.value ++ spot.behind <:+ t) ∧
      (m.OpenAt text spot ∨ m.ClosedUnseen text spot) := by
  have honItsLine : spot.line = m.line ∨ m.openBrace ∈ standing text spot.line →
      m.OpenAt text spot ∨ m.ClosedUnseen text spot := fun hopen =>
    (Classical.em (m.OpenAt text spot)).imp_right (.onItsLine hopen)
  rw [Occurrence.spot?, toolSpot] at h
  cases hclause : clauseWithin "description" m.opening.rest with
  | some found =>
    rw [hclause] at h
    cases h
    obtain ⟨before, hrest⟩ := exists_of_clauseWithin hclause
    refine ⟨⟨m.opening.rest, ?_, before, ?_⟩, honItsLine (.inl rfl)⟩
    · rw [Occurrence.textAt?, if_pos rfl]
      rfl
    · rw [hrest, List.append_assoc]
  | none =>
    rw [hclause] at h
    obtain ⟨hbraces, h⟩ := Option.ite_none_left_eq_some.1 h
    obtain ⟨hlater, ⟨t, ht, hsuffix⟩, hpassed⟩ := exists_of_findToolSpot h
    have hget : ∀ k t, m.line + 1 ≤ k →
        t ∈ (((scriptLines text).drop m.line).take toolReach)[k - (m.line + 1)]? →
        (scriptLines text)[k - 1]? = some t := by
      intro k t hk ht
      rw [Option.mem_def, List.getElem?_take] at ht
      obtain ⟨-, ht⟩ := Option.ite_none_right_eq_some.1 ht
      rw [List.getElem?_drop] at ht
      rwa [show k - 1 = m.line + (k - (m.line + 1)) by omega]
    refine ⟨⟨t, ?_, hsuffix⟩, ?_⟩
    · have hlt : m.line < spot.line := hlater
      rw [Occurrence.textAt?, if_neg hlt.ne', if_pos hlt]
      exact hget spot.line t hlater ht
    · by_cases hopen : m.openBrace ∈ standing text spot.line
      · exact honItsLine (.inr hopen)
      by_cases hfirst : m.openBrace ∈ standing text (m.line + 1)
      · obtain ⟨k, hk, hk', hopen, hclosed⟩ :=
          exists_last (P := fun k => m.openBrace ∈ standing text k) hlater hfirst hopen
        obtain ⟨t, ht, hstarts, hcloses⟩ := hpassed k hk hk'
        have hline := hget k t hk ht
        exact .inr (.between hk hk' hopen hclosed hline
          (mem_mask_of_closed (Nat.zero_lt_of_lt hk) hline hstarts hcloses hopen hclosed))
      · exact .inr (.onHeaderLine hlater hfirst (Int.not_lt.1 hbraces))

/-- What is known of the descriptions of all tools. -/
structure DescribedByBraces : Prop where
  /-- Every tool that is recorded comes from a header. -/
  tools : (outline text).tools = (metHeaders text).filterMap (Occurrence.toolDecl? (scriptLines text))
  /-- The braces that are open at a point are the scopes of the reader there. -/
  stack : ∀ n left, (readTo text n left).scopes.map Scope.bare = scopesOf (standingTo text n left)
  /-- A description stands where the tool is open, or the search went past the end of the tool. -/
  described : Described text fun m spot => m.OpenAt text spot ∨ m.ClosedUnseen text spot

/-- **Where descriptions come from**: each from the tool's own braces, except where the brace that
closes the tool is one that the search does not see. -/
theorem descriptions_within_or_unseen : DescribedByBraces text where
  tools := tools_outline text
  stack := scopes_readTo text
  described := by
    intro m hm d hd description hdescription
    rw [description_of_toolDecl? hd, toolDescription_eq_map m.line, Option.mem_def,
      Option.map_eq_some_iff] at hdescription
    obtain ⟨spot, hspot, rfl⟩ := hdescription
    exact ⟨spot, hspot, rfl, closedUnseen text hspot⟩

/-- A tool that is closed on the line of its header, and a block of its own behind it. -/
def strayDescriptionText : String :=
  "agent A \x7b\n  tool t() \x7b \x7d note \x7b\n    description: \"x\"\n  \x7d\n\x7d\n"

/-- A description may come from outside of its tool. -/
theorem description_from_outside : ¬ ∀ text, Described text (Occurrence.OpenAt text) := by
  intro h
  have hdescribed := h strayDescriptionText
  revert hdescribed
  unfold Described Occurrence.OpenAt
  decide +kernel

end AgentScript.Script
