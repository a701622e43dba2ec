import AgentScript.Proofs.Script.Enclosure
import Mathlib.Data.List.Nodup

/-!
# Members belong to the agents around them

Reading keeps members and agents in separate lists and connects them by a name.  Which name that is
is told by the skeleton of the script: the agent whose brace is the innermost that is still open
before the member's header (`enclosingAgent?_eq_some_iff` says what that means in terms of matched
braces).  A member that no agent encloses is left out and reported, once; and nothing else is
reported in its words, since the messages of all other warnings begin with another letter.

Headers stand at ever later places (`pairwise_place`), so a place tells one header from any other,
and the agent around a member comes before it.
-/

namespace AgentScript.Script

/-! ## Places -/

/-- The place of the header that a brace ends. -/
def Brace.place? : Brace → Option Place
  | .opening ⟨line, some o⟩ => some ⟨line, o.column⟩
  | _ => none

lemma line_of_place? {x : Brace} {place : Place} (h : x.place? = some place) :
    place.line = x.line := by
  match x with
  | .opening ⟨_, some _⟩ =>
    cases h
    rfl
  | .opening ⟨_, none⟩ => cases h
  | .closing _ => cases h

/-- Blanks and the brace of a header lie between its keyword and what it leaves. -/
lemma column_lt_of_read? {cs rest : List Char} {header : Header}
    (h : Header.read? cs = some (header, rest)) :
    (cs.takeWhile Text.isBlank).length < cs.length - rest.length := by
  rw [← Header.read?_dropBlanks] at h
  have hrest := (Header.read?_suffix h).length_le
  have hcs := congrArg List.length (List.takeWhile_append_dropWhile (p := Text.isBlank) (l := cs))
  rw [List.length_append] at hcs
  rw [Text.dropBlanks, List.length_cons] at hrest
  omega

/-- The headers of a line stand at ever later columns. -/
lemma pairwise_column (before : Nat) (cs : List Char) :
    (∀ o ∈ openingsFrom before cs, before < o.column) ∧
      (openingsFrom before cs).Pairwise (·.column < ·.column) := by
  unfold openingsFrom
  split
  next => exact ⟨fun _ ho => absurd ho List.not_mem_nil, .nil⟩
  next header rest hread =>
    have hlt : rest.length < cs.length := Header.length_lt_of_read? hread
    have hcolumn := column_lt_of_read? hread
    dsimp only
    split
    · exact ⟨fun o ho => by rw [List.mem_singleton.1 ho]; dsimp only; omega,
        List.pairwise_singleton _ _⟩
    · obtain ⟨hafter, hpairwise⟩ := pairwise_column (before + (cs.length - rest.length)) rest
      refine ⟨List.forall_mem_cons.2 ⟨by dsimp only; omega, fun o ho => ?_⟩,
        List.pairwise_cons.2 ⟨fun o ho => ?_, hpairwise⟩⟩
      · have ho := hafter o ho
        omega
      · have ho := hafter o ho
        dsimp only
        omega
termination_by cs.length
decreasing_by exact hlt

lemma sublist_place?_tag (line : Nat) (os : List Opening) (cs : List Char) :
    ((tag line os cs).filterMap Brace.place?).Sublist (os.map fun o => ⟨line, o.column⟩) := by
  induction cs generalizing os with
  | nil => exact List.nil_sublist _
  | cons c cs ih =>
    rw [tag]
    split_ifs
    · cases os with
      | nil => exact ih []
      | cons o os => exact (ih os).cons_cons _
    · exact ih os
    · exact ih os

lemma pairwise_place?_lineBraces (line : Nat) (before : List Brace) (text : List Char) :
    ((lineBraces line before text).filterMap Brace.place?).Pairwise Place.Before := by
  apply List.Pairwise.sublist (sublist_place?_tag line _ _)
  rw [List.pairwise_map]
  unfold headersOf
  split
  · exact .nil
  · exact (pairwise_column 0 text).2.imp fun h => .inr ⟨rfl, h⟩

lemma le_line_of_mem_bracesFrom {line : Nat} {before : List Brace} {ls : List (List Char)}
    {x : Brace} (hx : x ∈ bracesFrom line before ls) : line ≤ x.line := by
  induction ls generalizing line before with
  | nil => cases hx
  | cons text later ih =>
    rcases List.mem_append.1 hx with hx | hx
    · exact (line_of_mem_tag hx).ge
    · exact Nat.le_of_succ_le (ih hx)

/-- Headers stand at ever later places. -/
lemma pairwise_place?_bracesFrom (line : Nat) (before : List Brace) (ls : List (List Char)) :
    ((bracesFrom line before ls).filterMap Brace.place?).Pairwise Place.Before := by
  induction ls generalizing line before with
  | nil => exact .nil
  | cons text later ih =>
    rw [bracesFrom, List.filterMap_append, List.pairwise_append]
    refine ⟨pairwise_place?_lineBraces line before text, ih _ _, fun p hp q hq => .inl ?_⟩
    obtain ⟨x, hx, hplace⟩ := List.mem_filterMap.1 hp
    obtain ⟨y, hy, hplace'⟩ := List.mem_filterMap.1 hq
    rw [line_of_place? hplace, line_of_place? hplace', line_of_mem_tag hx]
    exact le_line_of_mem_bracesFrom hy

/-! ## Occurrences and braces -/

lemma exists_of_mem_occurrencesIn {m : Occurrence} {before bs : List Brace}
    (hm : m ∈ occurrencesIn before bs) :
    ∃ front back, bs = front ++ m.opening.brace m.line :: back ∧ m.before = before ++ front := by
  induction bs generalizing before with
  | nil => cases hm
  | cons x xs ih =>
    rcases List.mem_append.1 hm with hm | hm
    · rw [Option.mem_toList] at hm
      match x with
      | .opening ⟨_, some _⟩ =>
        cases hm
        exact ⟨[], xs, rfl, (List.append_nil _).symm⟩
      | .opening ⟨_, none⟩ => cases hm
      | .closing _ => cases hm
    · obtain ⟨front, back, rfl, hbefore⟩ := ih hm
      exact ⟨x :: front, back, rfl, by rw [hbefore]; simp⟩

lemma map_place_occurrencesIn (before bs : List Brace) :
    (occurrencesIn before bs).map Occurrence.place = bs.filterMap Brace.place? := by
  induction bs generalizing before with
  | nil => rfl
  | cons x xs ih =>
    rw [occurrencesIn, List.map_append, ih]
    cases x with
    | opening b =>
      obtain ⟨line, header?⟩ := b
      cases header? <;> rfl
    | closing line => rfl

variable {text : String}

lemma occurrences_eq (h : HasPlainTools text) :
    occurrences text = occurrencesIn [] (braces text) := occurrencesFrom_eq h

/-- The headers of a script stand at ever later places. -/
theorem pairwise_place (h : HasPlainTools text) :
    ((occurrences text).map Occurrence.place).Pairwise Place.Before := by
  rw [occurrences_eq h, map_place_occurrencesIn]
  exact pairwise_place?_bracesFrom 1 [] _

/-- No two headers stand at the same place. -/
lemma eq_of_place_eq (h : HasPlainTools text) {m m' : Occurrence} (hm : m ∈ occurrences text)
    (hm' : m' ∈ occurrences text) (hplace : m.place = m'.place) : m = m' := by
  have hnodup : ((occurrences text).map Occurrence.place).Nodup :=
    (pairwise_place h).imp Place.Before.ne
  exact List.inj_on_of_nodup_map hnodup hm hm' hplace

/-- The agent around a header was declared before it. -/
lemma exists_declares_of_agent? (h : HasPlainTools text) {m : Occurrence}
    (hm : m ∈ occurrences text) {name : String} {place : Place}
    (hagent : m.agent? = some (name, place)) :
    place.Before m.place ∧ ∃ a ∈ occurrences text, a.declares? = some (name, place) := by
  have hpairwise := pairwise_place?_bracesFrom 1 [] (scriptLines text)
  rw [occurrences_eq h] at hm ⊢
  obtain ⟨before, behind, hbraces, hbefore⟩ := exists_of_mem_occurrencesIn hm
  obtain ⟨front, ⟨line, header?⟩, back, hsplit, hname, -⟩ := enclosingAgent?_eq_some_iff.1 hagent
  rw [hbefore, List.nil_append] at hsplit
  cases header? with
  | none => cases hname
  | some o =>
    have hplace : (o.brace line).place? = some place := by
      obtain ⟨header, column, rest⟩ := o
      cases header <;> cases hname
      rfl
    constructor
    · rw [← braces, hbraces, List.filterMap_append, List.pairwise_append] at hpairwise
      refine hpairwise.2.2 place (List.mem_filterMap.2 ⟨o.brace line, ?_, hplace⟩) m.place
        (List.mem_filterMap.2 ⟨_, List.mem_cons_self, rfl⟩)
      rw [hsplit]
      exact List.mem_append_right _ List.mem_cons_self
    · refine ⟨⟨line, o, front⟩, ?_, hname⟩
      rw [hbraces, hsplit, occurrencesIn_append, occurrencesIn_append, List.nil_append]
      exact List.mem_append_left _ (List.mem_append_right _ List.mem_cons_self)

/-! ## What is reported -/

lemma head?_toList_append {s : String} {c : Char} (h : s.toList.head? = some c) (t : String) :
    (s ++ t).toList.head? = some c := by
  rw [String.toList_append, List.head?_append, h, Option.some_or]

/-- Every other warning begins with the word `agent`, and one about a member without an agent does
not. -/
lemma head?_message {cause : Cause} (h : cause.severity = .warning) :
    cause.message.toList.head? = some 'a' ↔ cause.isOutside = false := by
  have hagent : "agent '".toList.head? = some 'a' := by decide
  have htool : "tool '".toList.head? = some 't' := by decide
  have hevent : "event handler '".toList.head? = some 'e' := by decide
  cases cause with
  | strayBrace => cases h
  | neverClosed => cases h
  | agentAgain =>
    apply iff_of_true _ rfl
    iterate 2 apply head?_toList_append
    exact hagent
  | stateAgain =>
    apply iff_of_true _ rfl
    iterate 2 apply head?_toList_append
    exact hagent
  | memberAgain =>
    apply iff_of_true _ rfl
    iterate 6 apply head?_toList_append
    exact hagent
  | toolOutside name =>
    have hhead : (Cause.toolOutside name).message.toList.head? = some 't' :=
      head?_toList_append (head?_toList_append htool name) _
    rw [hhead]
    exact iff_of_false (by decide) (fun h => by cases h)
  | eventOutside name =>
    have hhead : (Cause.eventOutside name).message.toList.head? = some 'e' :=
      head?_toList_append (head?_toList_append hevent name) _
    rw [hhead]
    exact iff_of_false (by decide) (fun h => by cases h)
  | stateOutside => decide

lemma severity_of_isOutside {cause : Cause} (h : cause.isOutside = true) :
    cause.severity = .warning := by
  cases cause <;> first | rfl | cases h

/-- A finding about a member without an agent reads like no other finding. -/
lemma toDiagnostic_ne {f f' : Finding} (h : f.cause.isOutside = false)
    (h' : f'.cause.isOutside = true) : f.toDiagnostic ≠ f'.toDiagnostic := by
  intro heq
  have hseverity : f.cause.severity = f'.cause.severity := congrArg Diagnostic.severity heq
  have hmessage : f.cause.message = f'.cause.message := congrArg Diagnostic.message heq
  rw [severity_of_isOutside h'] at hseverity
  have hhead := (head?_message hseverity).2 h
  rw [hmessage, head?_message (severity_of_isOutside h'), h'] at hhead
  cases hhead

/-! ## Ownership -/

/-- What the braces of a script say about the members that its outline records. -/
structure OwnedByBraces (text : String) : Prop where
  /-- The braces are those that masking leaves. -/
  skeleton : braceChars text = maskedBraces text
  /-- Each member header that an agent encloses is recorded, once and under the name of the innermost
  agent around it; and nothing else is recorded as a member. -/
  members : (outline text).members.Perm ((occurrences text).filterMap Occurrence.member?)
  /-- The agent around a header is recorded, and comes before it. -/
  agents : ∀ m ∈ occurrences text, ∀ name place, m.agent? = some (name, place) →
    place.Before m.place ∧ ∃ d ∈ (outline text).agents, d.name = name ∧ d.place = place
  /-- A tool, event handler or state block is recorded exactly if an agent encloses its header. -/
  recorded : ∀ m ∈ occurrences text, m.header.outside?.isSome →
    ((∃ d ∈ (outline text).members, d.place = m.place) ↔ m.agent?.isSome)
  /-- Each one that no agent encloses has one warning of its own, on its line. -/
  warnings : ∃ others, (outline text).diagnostics.Perm
      (((occurrences text).filterMap Occurrence.outside?).map Finding.toDiagnostic ++ others) ∧
    ∀ d ∈ others, ∀ f : Finding, f.cause.isOutside = true → d ≠ f.toDiagnostic

lemma member?_eq {m : Occurrence} (hmember : m.header.outside?.isSome = true) :
    m.member? = m.agent?.map fun agent => ⟨m.header, agent.1, m.place⟩ := by
  rw [Occurrence.member?, Opening.member?, ← Occurrence.header, if_pos hmember, Option.map_map]
  rfl

lemma place_of_member? {m : Occurrence} {d : Member} (h : m.member? = some d) :
    d.place = m.place := by
  rw [Occurrence.member?, Opening.member?] at h
  obtain ⟨-, hagent⟩ := Option.ite_none_right_eq_some.1 h
  obtain ⟨agent, -, rfl⟩ := Option.map_eq_some_iff.1 hagent
  rfl

/-- The place of a header tells whether the header became a member. -/
lemma exists_member_iff (h : HasPlainTools text) {m : Occurrence} (hm : m ∈ occurrences text)
    (hmember : m.header.outside?.isSome = true) :
    (∃ d ∈ (occurrences text).filterMap Occurrence.member?, d.place = m.place) ↔
      m.agent?.isSome = true := by
  have hown : m.member?.isSome = m.agent?.isSome := by rw [member?_eq hmember, Option.isSome_map]
  rw [← hown]
  constructor
  · rintro ⟨d, hd, hplace⟩
    obtain ⟨m', hm', hmember'⟩ := List.mem_filterMap.1 hd
    obtain rfl := eq_of_place_eq h hm' hm ((place_of_member? hmember').symm.trans hplace)
    rw [hmember']
    rfl
  · intro hsome
    obtain ⟨d, hd⟩ := Option.isSome_iff_exists.1 hsome
    exact ⟨d, List.mem_filterMap.2 ⟨m, hm, hd⟩, place_of_member? hd⟩

/-- The findings about members without an agent are told from all other diagnostics. -/
lemma perm_outsideFindings (r : Reading) :
    ∃ others, r.diagnostics.Perm (r.outsideFindings.map Finding.toDiagnostic ++ others) ∧
      ∀ d ∈ others, ∀ f : Finding, f.cause.isOutside = true → d ≠ f.toDiagnostic := by
  refine ⟨(r.findings.filter fun f => !f.cause.isOutside).map Finding.toDiagnostic, ?_, ?_⟩
  · rw [← List.map_append]
    exact (perm_diagnostics _).trans ((List.filter_append_perm _ _).symm.map _)
  · intro d hd f hf
    obtain ⟨f', hf', rfl⟩ := List.mem_map.1 hd
    have hinside := (List.mem_filter.1 hf').2
    rw [Bool.not_eq_true'] at hinside
    exact toDiagnostic_ne hinside hf

/-- **Ownership is structural.** -/
theorem members_owned_by_braces (text : String) (h : HasPlainTools text) : OwnedByBraces text := by
  obtain ⟨hagents, hmembers, houtside, -⟩ :=
    (Reading.follows_scriptLines h).finish (scriptLines text).length
  rw [← occurrences_eq h] at hagents hmembers houtside
  refine ⟨braceChars_eq text, hmembers, fun m hm name place hagent => ?_,
    fun m hm hmember => ?_, ?_⟩
  · obtain ⟨hbefore, a, ha, hdeclares⟩ := exists_declares_of_agent? h hm hagent
    have hnamed := List.mem_filterMap.2 ⟨a, ha, hdeclares⟩
    rw [← hagents, List.mem_map] at hnamed
    obtain ⟨d, hd, hnamed⟩ := hnamed
    obtain ⟨hname, hplace⟩ := Prod.mk.inj hnamed
    exact ⟨hbefore, d, hd, hname, hplace⟩
  · rw [← exists_member_iff h hm hmember]
    exact exists_congr fun d => and_congr_left fun _ => hmembers.mem_iff
  · rw [← houtside]
    exact perm_outsideFindings (reading text)

/-- A script with a tool, an event handler and a state block inside an agent, behind a pair of braces
of its own, and a tool outside. -/
def membersText : String :=
  "agent A \x7b\n  model \x7b name: \"m\" \x7d\n  tool t(x: int) \x7b\n  \x7d\n  on start \x7b\n" ++
    "  \x7d\n  state \x7b n: int \x7d\n\x7d\ntool loose() \x7b\n\x7d\n"

-- One evaluation for all three facts: each needs the skeleton of the script.
lemma facts_membersText :
    HasPlainTools membersText ∧
      ((occurrences membersText).filterMap Occurrence.member?).map (·.agent) = ["A", "A", "A"] ∧
      (occurrences membersText).filterMap Occurrence.outside? = [⟨9, .toolOutside "loose"⟩] := by
  decide +kernel

theorem members_owned_by_braces_membersText :
    HasPlainTools membersText ∧ OwnedByBraces membersText ∧
      ((occurrences membersText).filterMap Occurrence.member?).map (·.agent) = ["A", "A", "A"] ∧
      (occurrences membersText).filterMap Occurrence.outside? = [⟨9, .toolOutside "loose"⟩] :=
  ⟨facts_membersText.1, members_owned_by_braces membersText facts_membersText.1,
    facts_membersText.2⟩

end AgentScript.Script
