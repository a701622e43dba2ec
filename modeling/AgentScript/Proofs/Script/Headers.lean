import AgentScript.Proofs.Script.Fields
import AgentScript.Script.Header
import AgentScript.Script.Opening

/-!
# Headers come back from the lines they are written as

A header is told by the first letters of its line, so that blanks in front of it change nothing
(`read?_dropBlanks`).  On the lines that open a block of a canonical script the five readers do not
get in each other's way: each line is read as the header it was written for, with nothing left over.

Conversely a header that was read names things by names and types by types (`Header.WellFormed`),
whatever stood around it.
-/

namespace AgentScript.Script

open AgentScript.Text

namespace Header

/-! ## Blanks in front -/

lemma readNamed_dropBlanks (word : String) (cs : List Char) :
    readNamed word (dropBlanks cs) = readNamed word cs := by
  rw [readNamed, readNamed, dropBlanks_dropBlanks]

/-- Blanks in front of a header change nothing. -/
lemma read?_dropBlanks (cs : List Char) : read? (dropBlanks cs) = read? cs := by
  simp only [read?, readAgent, readTool, readEvent, readState, readTypeDecl, readNamed_dropBlanks,
    dropBlanks_dropBlanks]

lemma readAgent_dropBlanks (cs : List Char) : readAgent (dropBlanks cs) = readAgent cs := by
  simp only [readAgent, readNamed_dropBlanks]

lemma read?_blanks_append {blanks : List Char} (h : ∀ b ∈ blanks, isBlank b = true)
    (cs : List Char) : read? (blanks ++ cs) = read? cs := by
  rw [← read?_dropBlanks, dropBlanks_append h, read?_dropBlanks]

lemma readAgent_blanks_append {blanks : List Char} (h : ∀ b ∈ blanks, isBlank b = true)
    (cs : List Char) : readAgent (blanks ++ cs) = readAgent cs := by
  rw [← readAgent_dropBlanks, dropBlanks_append h, readAgent_dropBlanks]

/-! ## What no header begins with -/

lemma after?_eq_none {l : Char} {ls cs : List Char} (h : cs.head? ≠ some l) :
    after? (l :: ls) cs = none := by
  cases cs with
  | nil => rfl
  | cons c cs =>
    rw [after?, if_neg]
    rintro rfl
    exact h rfl

lemma readAgent_of_read?_eq_none {cs : List Char} (h : read? cs = none) : readAgent cs = none := by
  rw [read?, Option.orElse_eq_orElse, Option.orElse_eq_or, Option.or_eq_none_iff] at h
  exact h.1

/-! ## Headers as they are written -/

/-- Text after a name: it goes on with another character. -/
def EndsName (rest : List Char) : Prop := ∀ c, rest.head? = some c → isWord c = false

lemma readNamed_written {word name : String} {l : Char} {ls rest : List Char}
    (hword : word.toList = l :: ls) (hl : isBlank l = false) (hname : isName name.toList = true)
    (hrest : EndsName rest) :
    readNamed word (word.toList ++ ' ' :: (name.toList ++ rest)) = some (name, dropBlanks rest) := by
  have hfront : dropBlanks (word.toList ++ ' ' :: (name.toList ++ rest)) =
      word.toList ++ ' ' :: (name.toList ++ rest) := by
    rw [hword, List.cons_append, dropBlanks_of_not_isBlank hl]
  have hblank : readBlanks (' ' :: (name.toList ++ rest)) = some (name.toList ++ rest) := by
    rw [readBlanks, if_pos (by decide), dropBlanks_name_append hname]
  rw [readNamed, hfront, after?_append]
  simp [hblank, readName_append hname hrest]

lemma endsName_brace : EndsName [' ', '{'] := fun c hc => by cases hc; decide

lemma expect_brace : expect '{' (dropBlanks [' ', '{']) = some [] := by decide

lemma readAgent_written {name : String} (h : isName name.toList = true) :
    readAgent ("agent".toList ++ ' ' :: (name.toList ++ [' ', '{'])) = some (.agent name, []) := by
  rw [readAgent, readNamed_written rfl (by decide) h endsName_brace]
  simp [expect_brace]

lemma read?_agent {name : String} (h : isName name.toList = true) :
    read? ("agent".toList ++ ' ' :: (name.toList ++ [' ', '{'])) = some (.agent name, []) := by
  rw [read?, readAgent_written h]
  rfl

lemma read?_event {name : String} (h : isName name.toList = true) :
    read? ("on".toList ++ ' ' :: (name.toList ++ [' ', '{'])) = some (.event name, []) := by
  have hevent : readEvent ("on".toList ++ ' ' :: (name.toList ++ [' ', '{'])) =
      some (.event name, []) := by
    rw [readEvent, readNamed_written rfl (by decide) h endsName_brace]
    simp [expect_brace]
  have hagent : readNamed "agent" ("on".toList ++ ' ' :: (name.toList ++ [' ', '{'])) = none := rfl
  have htool : readNamed "tool" ("on".toList ++ ' ' :: (name.toList ++ [' ', '{'])) = none := rfl
  rw [read?, readAgent, readTool, hagent, htool, hevent]
  rfl

lemma read?_type {name : String} (h : isName name.toList = true) :
    read? ("type".toList ++ ' ' :: (name.toList ++ [' ', '{'])) = some (.type name, []) := by
  have htype : readTypeDecl ("type".toList ++ ' ' :: (name.toList ++ [' ', '{'])) =
      some (.type name, []) := by
    rw [readTypeDecl, readNamed_written rfl (by decide) h endsName_brace]
    simp [expect_brace]
  have hagent : readNamed "agent" ("type".toList ++ ' ' :: (name.toList ++ [' ', '{'])) = none := rfl
  have htool : readNamed "tool" ("type".toList ++ ' ' :: (name.toList ++ [' ', '{'])) = none := rfl
  have hevent : readNamed "on" ("type".toList ++ ' ' :: (name.toList ++ [' ', '{'])) = none := rfl
  have hstate : readState ("type".toList ++ ' ' :: (name.toList ++ [' ', '{'])) = none := rfl
  rw [read?, readAgent, readTool, readEvent, hagent, htool, hevent, hstate, htype]
  rfl

/-- What a tool returns, as its header says it. -/
def arrow (returns : Option String) : List Char :=
  (returns.map fun type => [' ', '-', '>', ' '] ++ type.toList).getD []

lemma readParams_append {params : List Char} (h : ')' ∉ params) (rest : List Char) :
    readParams (params ++ ')' :: rest) = some (params, rest) := by
  have hrun : ∀ c ∈ params, (c != ')') = true := by
    intro c hc
    rw [bne_iff_ne]
    rintro rfl
    exact h hc
  have hstop : ∀ c, (')' :: rest).head? = some c → (c != ')') = false := by
    rintro c ⟨⟩
    rfl
  obtain ⟨htake, hdrop⟩ := takeWhile_append_stop hrun hstop
  rw [readParams, hdrop, htake]

lemma readReturns_arrow {type : String} (h : isType type.toList = true) :
    readReturns (dropBlanks (arrow (some type) ++ [' ', '{'])) = some (type.toList, [' ', '{']) := by
  have hfront : dropBlanks (arrow (some type) ++ [' ', '{']) =
      '-' :: '>' :: ' ' :: (type.toList ++ [' ', '{']) := rfl
  have hdrop : dropBlanks (' ' :: (type.toList ++ [' ', '{'])) = type.toList ++ [' ', '{'] := by
    obtain ⟨c, tail, hlist, hchar, -⟩ := isType_iff.1 h
    rw [← List.singleton_append, dropBlanks_append (by decide), dropBlanks_eq_self]
    intro d hd
    rw [hlist, List.cons_append, List.head?_cons, Option.some.injEq] at hd
    exact isBlank_eq_false_of_isTypeChar (hd ▸ hchar)
  have hends : EndsType [' ', '{'] := fun c hc => by cases hc; decide
  rw [hfront, readReturns]
  simp [expect, hdrop, readType_append h hends]

lemma readTool_written {name params : String} {returns : Option String}
    (hname : isName name.toList = true) (hparams : ')' ∉ params.toList)
    (hreturns : ∀ type ∈ returns, isType type.toList = true) :
    readTool ("tool".toList ++ ' ' :: (name.toList ++
        '(' :: (params.toList ++ ')' :: (arrow returns ++ [' ', '{'])))) =
      some (.tool name (String.ofList (trim params.toList)) returns, []) := by
  have hends : EndsName ('(' :: (params.toList ++ ')' :: (arrow returns ++ [' ', '{']))) :=
    fun c hc => by cases hc; decide
  rw [readTool, readNamed_written rfl (by decide) hname hends,
    dropBlanks_of_not_isBlank (by decide)]
  have hbrace : dropBlanks [' ', '{'] = ['{'] := by decide
  cases returns with
  | none =>
    have hnone : readReturns ['{'] = none := rfl
    simp [expect, readParams_append hparams, arrow, hbrace, hnone]
  | some type =>
    simp [expect, readParams_append hparams, readReturns_arrow (hreturns type rfl), hbrace]

lemma read?_tool {name params : String} {returns : Option String}
    (hname : isName name.toList = true) (hparams : ')' ∉ params.toList)
    (hreturns : ∀ type ∈ returns, isType type.toList = true) :
    read? ("tool".toList ++ ' ' :: (name.toList ++
        '(' :: (params.toList ++ ')' :: (arrow returns ++ [' ', '{'])))) =
      some (.tool name (String.ofList (trim params.toList)) returns, []) := by
  have hagent : readNamed "agent" ("tool".toList ++ ' ' :: (name.toList ++
      '(' :: (params.toList ++ ')' :: (arrow returns ++ [' ', '{'])))) = none := rfl
  rw [read?, readAgent, hagent, readTool_written hname hparams hreturns]
  rfl

/-! ## Headers that were read -/

/-- A parameter list as it is read: without blanks at either end, without the parenthesis that ended
it, and from one line. -/
def IsParams (params : List Char) : Prop := trim params = params ∧ ')' ∉ params ∧ '\n' ∉ params

/-- What every header that was read from a line fulfils. -/
def WellFormed : Header → Prop
  | .agent name => isName name.toList = true
  | .tool name params returns =>
    isName name.toList = true ∧ IsParams params.toList ∧
      ∀ type ∈ returns, isType type.toList = true ∧ '\n' ∉ type.toList
  | .event name => isName name.toList = true
  | .state => True
  | .type name => isName name.toList = true

lemma isName_of_readNamed {word name : String} {cs rest : List Char}
    (h : readNamed word cs = some (name, rest)) : isName name.toList = true := by
  simp only [readNamed, Option.bind_eq_bind, Option.bind_eq_some_iff, Option.pure_def,
    Option.some.injEq, Prod.exists, Prod.mk.injEq] at h
  obtain ⟨after, -, front, -, letters, left, hname, rfl, -⟩ := h
  rw [String.toList_ofList]
  exact (readName_sound hname).1

lemma isParams_of_readParams {cs params rest : List Char} (hline : '\n' ∉ cs)
    (h : readParams cs = some (params, rest)) : IsParams (trim params) := by
  unfold readParams at h
  split at h
  next => cases h
  next =>
    obtain ⟨rfl, -⟩ := Prod.mk.inj (Option.some.inj h)
    refine ⟨trim_trim _, fun hmem => ?_, fun hmem => ?_⟩
    · have hparen := List.mem_takeWhile_imp (mem_of_mem_trim hmem)
      cases hparen
    · exact hline ((List.takeWhile_subset _) (mem_of_mem_trim hmem))

lemma isType_of_readReturns {cs type rest : List Char} (hline : '\n' ∉ cs)
    (h : readReturns cs = some (type, rest)) : isType type = true ∧ '\n' ∉ type := by
  simp only [readReturns, Option.bind_eq_bind, Option.bind_eq_some_iff, expect_eq_some] at h
  obtain ⟨_, rfl, left, rfl, htype⟩ := h
  obtain ⟨hisType, happend⟩ := readType_sound htype
  refine ⟨hisType, fun hmem => hline ?_⟩
  have hleft : '\n' ∈ left := by
    apply (dropBlanks_suffix left).subset
    rw [← happend]
    exact List.mem_append_left rest hmem
  exact List.mem_cons_of_mem _ (List.mem_cons_of_mem _ hleft)

/-- What a header of a keyword and a name consists of. -/
lemma named_eq_some_iff {word : String} {header : String → Header} {cs rest : List Char}
    {h : Header} :
    (do
      let (name, rest) ← readNamed word cs
      return (header name, ← expect '{' rest)) = some (h, rest) ↔
      ∃ name, readNamed word cs = some (name, '{' :: rest) ∧ h = header name := by
  simp only [Option.bind_eq_bind, Option.bind_eq_some_iff, Option.pure_def, Option.some.injEq,
    Prod.exists, Prod.mk.injEq, expect_eq_some]
  constructor
  · rintro ⟨name, _, hname, _, rfl, rfl, rfl⟩
    exact ⟨name, hname, rfl⟩
  · rintro ⟨name, hname, rfl⟩
    exact ⟨name, _, hname, rest, rfl, rfl, rfl⟩

lemma readAgent_eq_some_iff {cs rest : List Char} {h : Header} :
    readAgent cs = some (h, rest) ↔
      ∃ name, readNamed "agent" cs = some (name, '{' :: rest) ∧ h = .agent name :=
  named_eq_some_iff

lemma readEvent_eq_some_iff {cs rest : List Char} {h : Header} :
    readEvent cs = some (h, rest) ↔
      ∃ name, readNamed "on" cs = some (name, '{' :: rest) ∧ h = .event name :=
  named_eq_some_iff

lemma readTypeDecl_eq_some_iff {cs rest : List Char} {h : Header} :
    readTypeDecl cs = some (h, rest) ↔
      ∃ name, readNamed "type" cs = some (name, '{' :: rest) ∧ h = .type name :=
  named_eq_some_iff

lemma readState_eq_some_iff {cs rest : List Char} {h : Header} :
    readState cs = some (h, rest) ↔
      ∃ after, after? "state".toList (dropBlanks cs) = some after ∧
        dropBlanks after = '{' :: rest ∧ h = .state := by
  simp only [readState, Option.bind_eq_bind, Option.bind_eq_some_iff, Option.pure_def,
    Option.some.injEq, Prod.mk.injEq, expect_eq_some]
  constructor
  · rintro ⟨after, hafter, _, hbrace, rfl, rfl⟩
    exact ⟨after, hafter, hbrace, rfl⟩
  · rintro ⟨after, hafter, hbrace, rfl⟩
    exact ⟨after, hafter, rest, hbrace, rfl, rfl⟩

/-- The end of a tool's header, behind its parameters: what the tool returns, and the brace. -/
def readEnd (cs : List Char) : Option (Option String × List Char) :=
  match readReturns (dropBlanks cs) with
  | some (letters, rest) =>
    (expect '{' (dropBlanks rest)).map fun body => (some (String.ofList letters), body)
  | none => (expect '{' (dropBlanks cs)).map fun body => (none, body)

lemma readEnd_suffix {cs rest : List Char} {returns : Option String}
    (h : readEnd cs = some (returns, rest)) : '{' :: rest <:+ cs := by
  unfold readEnd at h
  split at h
  next letters after hreturns =>
    rw [Option.map_eq_some_iff] at h
    obtain ⟨body, hbrace, heq⟩ := h
    obtain ⟨-, rfl⟩ := Prod.mk.inj heq
    rw [expect_eq_some] at hbrace
    exact (hbrace ▸ dropBlanks_suffix after).trans
      ((readReturns_suffix hreturns).trans (dropBlanks_suffix cs))
  next =>
    rw [Option.map_eq_some_iff] at h
    obtain ⟨body, hbrace, heq⟩ := h
    obtain ⟨-, rfl⟩ := Prod.mk.inj heq
    rw [expect_eq_some] at hbrace
    exact hbrace ▸ dropBlanks_suffix cs

lemma isType_of_readEnd {cs rest : List Char} {returns : Option String} (hline : '\n' ∉ cs)
    (h : readEnd cs = some (returns, rest)) :
    ∀ type ∈ returns, isType type.toList = true ∧ '\n' ∉ type.toList := by
  unfold readEnd at h
  split at h
  next letters after hreturns =>
    rw [Option.map_eq_some_iff] at h
    obtain ⟨body, -, heq⟩ := h
    obtain ⟨rfl, -⟩ := Prod.mk.inj heq
    have hdrop : '\n' ∉ dropBlanks cs := fun hmem => hline ((dropBlanks_suffix cs).subset hmem)
    rintro _ ⟨⟩
    rw [String.toList_ofList]
    exact isType_of_readReturns hdrop hreturns
  next =>
    rw [Option.map_eq_some_iff] at h
    obtain ⟨body, -, heq⟩ := h
    obtain ⟨rfl, -⟩ := Prod.mk.inj heq
    rintro _ ⟨⟩

lemma readTool_eq (cs : List Char) :
    readTool cs = (readNamed "tool" cs).bind fun named => (expect '(' named.2).bind fun left =>
      (readParams left).bind fun read => (readEnd read.2).map fun ended =>
        (.tool named.1 (String.ofList (trim read.1)) ended.1, ended.2) := by
  rw [readTool]
  refine Option.bind_congr fun named _ => Option.bind_congr fun left _ =>
    Option.bind_congr fun read _ => ?_
  rw [readEnd]
  dsimp only
  cases readReturns (dropBlanks read.2) with
  | none =>
    dsimp only
    cases expect '{' (dropBlanks read.2) <;> rfl
  | some returns =>
    dsimp only
    cases expect '{' (dropBlanks returns.2) <;> rfl

/-- What the header of a tool consists of. -/
lemma readTool_eq_some_iff {cs rest : List Char} {h : Header} :
    readTool cs = some (h, rest) ↔
      ∃ name left params after returns, readNamed "tool" cs = some (name, '(' :: left) ∧
        readParams left = some (params, after) ∧ readEnd after = some (returns, rest) ∧
        h = .tool name (String.ofList (trim params)) returns := by
  simp only [readTool_eq, Option.bind_eq_some_iff, Option.map_eq_some_iff, Prod.exists,
    expect_eq_some, Prod.mk.injEq]
  constructor
  · rintro ⟨name, _, hname, left, rfl, params, after, hparams, returns, _, hend, rfl, rfl⟩
    exact ⟨name, left, params, after, returns, hname, hparams, hend, rfl⟩
  · rintro ⟨name, left, params, after, returns, hname, hparams, hend, rfl⟩
    exact ⟨name, _, hname, left, rfl, params, after, hparams, returns, rest, hend, rfl, rfl⟩

lemma wellFormed_of_readTool {cs rest : List Char} {h : Header} (hline : '\n' ∉ cs)
    (hr : readTool cs = some (h, rest)) : h.WellFormed := by
  obtain ⟨name, left, params, after, returns, hname, hparams, hend, rfl⟩ :=
    readTool_eq_some_iff.1 hr
  have hleft : left <:+ cs := (List.suffix_cons _ left).trans (readNamed_suffix hname)
  have hafter : after <:+ cs := (readParams_suffix hparams).trans hleft
  have hisParams := isParams_of_readParams (fun hmem => hline (hleft.subset hmem)) hparams
  refine ⟨isName_of_readNamed hname, ?_,
    isType_of_readEnd (fun hmem => hline (hafter.subset hmem)) hend⟩
  rwa [String.toList_ofList]

/-- What a header names is a name, and what it returns a type. -/
theorem wellFormed_of_read? {cs rest : List Char} {h : Header} (hline : '\n' ∉ cs)
    (hr : read? cs = some (h, rest)) : h.WellFormed := by
  simp only [read?, Option.orElse_eq_orElse, Option.orElse_eq_or, Option.or_eq_some_iff] at hr
  rcases hr with hr | ⟨-, hr | ⟨-, hr | ⟨-, hr | ⟨-, hr⟩⟩⟩⟩
  · obtain ⟨name, hname, rfl⟩ := readAgent_eq_some_iff.1 hr
    exact isName_of_readNamed hname
  · exact wellFormed_of_readTool hline hr
  · obtain ⟨name, hname, rfl⟩ := readEvent_eq_some_iff.1 hr
    exact isName_of_readNamed hname
  · obtain ⟨_, -, -, rfl⟩ := readState_eq_some_iff.1 hr
    trivial
  · obtain ⟨name, hname, rfl⟩ := readTypeDecl_eq_some_iff.1 hr
    exact isName_of_readNamed hname

end Header

/-! ## Openings -/

lemma openingsFrom_of_read?_eq_none {cs : List Char} (h : Header.read? cs = none) (before : Nat) :
    openingsFrom before cs = [] := by
  rw [openingsFrom]
  split
  next => rfl
  next heq =>
    rw [h] at heq
    cases heq

lemma openingsFrom_of_read? {cs rest : List Char} {header : Header}
    (h : Header.read? cs = some (header, rest)) (before : Nat) :
    openingsFrom before cs = ⟨header, before + (cs.takeWhile isBlank).length + 1, rest⟩ ::
      if header.opensFields then [] else openingsFrom (before + (cs.length - rest.length)) rest := by
  rw [openingsFrom]
  split
  next heq =>
    rw [h] at heq
    cases heq
  next heq =>
    rw [h] at heq
    obtain ⟨rfl, rfl⟩ := Prod.mk.inj (Option.some.inj heq)
    rfl

/-- A line that opens nothing is body text. -/
lemma bodyText_nil (line : List Char) : bodyText line [] = mask .code line := by
  have htake : line.take (line.length - line.length) = [] := by rw [Nat.sub_self, List.take_zero]
  rw [bodyText, List.getLast?_nil, Option.map_none, Option.getD_none, htake, situationAfter]

/-- Every header of a line is read at some end of the line. -/
lemma exists_read?_of_mem_openingsFrom (before : Nat) (cs : List Char) :
    ∀ o ∈ openingsFrom before cs,
      ∃ tail, tail <:+ cs ∧ Header.read? tail = some (o.header, o.rest) := by
  unfold openingsFrom
  split
  next => exact fun _ ho => absurd ho List.not_mem_nil
  next header rest hread =>
    have hrest : rest <:+ cs := (List.suffix_cons _ rest).trans (Header.read?_suffix hread)
    have hlt : rest.length < cs.length := Header.length_lt_of_read? hread
    refine List.forall_mem_cons.2 ⟨⟨cs, List.suffix_refl cs, hread⟩, ?_⟩
    split
    · exact fun _ ho => absurd ho List.not_mem_nil
    · intro o ho
      obtain ⟨tail, htail, hsaid⟩ := exists_read?_of_mem_openingsFrom _ rest o ho
      exact ⟨tail, htail.trans hrest, hsaid⟩
termination_by cs.length
decreasing_by exact hlt

/-- What follows a header is the end of the line. -/
lemma suffix_of_mem_openingsFrom (before : Nat) (cs : List Char) :
    ∀ o ∈ openingsFrom before cs, o.rest <:+ cs := by
  intro o ho
  obtain ⟨tail, htail, hread⟩ := exists_read?_of_mem_openingsFrom before cs o ho
  exact ((List.suffix_cons _ o.rest).trans (Header.read?_suffix hread)).trans htail

/-- The headers of a line are well formed. -/
lemma wellFormed_of_mem_openingsFrom (before : Nat) (cs : List Char) (hline : '\n' ∉ cs) :
    ∀ o ∈ openingsFrom before cs, o.header.WellFormed := by
  intro o ho
  obtain ⟨tail, htail, hread⟩ := exists_read?_of_mem_openingsFrom before cs o ho
  exact Header.wellFormed_of_read? (fun hmem => hline (htail.subset hmem)) hread

end AgentScript.Script
