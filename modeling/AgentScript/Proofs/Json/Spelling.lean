import AgentScript.Json.Draft
import Mathlib.Data.List.Basic
import Mathlib.Tactic.Common

/-!
# The spelling of a draft

A draft without a fault is the tree of a JSON text, and the text spells the tree: its tokens are
those of the tree, with a comma between items or members and brackets around them (`Spells`).  So
what a text means can be said by its tree, and what is done to the text by what is done to the tree.

The automaton that reads drafts goes by single tokens.  From the tokens of a tree it makes the tree,
whatever is open around it (`run_tokenList`).  In turn it keeps account of the tokens it took: those
of the open arrays and objects and of what it waits for (`passed`), which a step adds its token to
(`step_accounts`).  So a tree that it returns has the tokens it took (`passed_of_run`), and a text
spells a tree exactly if it is read as that tree (`spells_iff`).
-/

namespace AgentScript.Json

namespace Draft

/-! ## Trees and their tokens -/

mutual

/-- A draft without a fault: the tree of a text. -/
def Whole : Draft → Prop
  | .string t => t.fault = none
  | .array items ending => WholeItems items ∧ ending = .closed
  | .object members ending => WholeMembers members ∧ ending = .closed
  | .broken _ => False
  | _ => True

def WholeItems : List Draft → Prop
  | [] => True
  | d :: ds => Whole d ∧ WholeItems ds

def WholeMembers : List (StringText × Draft) → Prop
  | [] => True
  | (key, d) :: ms => (key.fault = none ∧ Whole d) ∧ WholeMembers ms

end

lemma wholeItems_iff (ds : List Draft) : WholeItems ds ↔ ∀ d ∈ ds, d.Whole := by
  induction ds with
  | nil => simp [WholeItems]
  | cons d ds ih => rw [WholeItems, ih, List.forall_mem_cons]

lemma wholeMembers_iff (ms : List (StringText × Draft)) :
    WholeMembers ms ↔ ∀ m ∈ ms, m.1.fault = none ∧ m.2.Whole := by
  induction ms with
  | nil => simp [WholeMembers]
  | cons m ms ih => rw [WholeMembers, ih, List.forall_mem_cons]

@[simp]
lemma whole_string (t : StringText) : (Draft.string t).Whole ↔ t.fault = none := by rw [Whole]

@[simp]
lemma whole_array (ds : List Draft) (ending : Ending) :
    (Draft.array ds ending).Whole ↔ (∀ d ∈ ds, d.Whole) ∧ ending = .closed := by
  rw [Whole, wholeItems_iff]

@[simp]
lemma whole_object (ms : List (StringText × Draft)) (ending : Ending) :
    (Draft.object ms ending).Whole ↔
      (∀ m ∈ ms, m.1.fault = none ∧ m.2.Whole) ∧ ending = .closed := by
  rw [Whole, wholeMembers_iff]

@[simp]
lemma not_whole_broken (fault : Fault) : ¬(Draft.broken fault).Whole := by
  rw [Whole]
  exact not_false

mutual

/-- The tokens of a tree. -/
def tokenList : Draft → List Token
  | .null => [.null]
  | .bool b => [.bool b]
  | .number t => [.number t]
  | .string t => [.string t]
  | .array items _ => .openArray :: [Token.comma].intercalate (itemTokens items) ++ [.closeArray]
  | .object members _ =>
    .openObject :: [Token.comma].intercalate (memberTokens members) ++ [.closeObject]
  | .broken fault => [.broken fault]

/-- The tokens of each item. -/
def itemTokens : List Draft → List (List Token)
  | [] => []
  | d :: ds => tokenList d :: itemTokens ds

/-- The tokens of each member. -/
def memberTokens : List (StringText × Draft) → List (List Token)
  | [] => []
  | (key, d) :: ms => (.string key :: .colon :: tokenList d) :: memberTokens ms

end

/-- The tokens of a member. -/
def ofMember (m : StringText × Draft) : List Token := .string m.1 :: .colon :: m.2.tokenList

lemma itemTokens_eq (ds : List Draft) : itemTokens ds = ds.map tokenList := by
  induction ds with
  | nil => rw [itemTokens, List.map_nil]
  | cons d ds ih => rw [itemTokens, ih, List.map_cons]

lemma memberTokens_eq (ms : List (StringText × Draft)) : memberTokens ms = ms.map ofMember := by
  induction ms with
  | nil => rw [memberTokens, List.map_nil]
  | cons m ms ih => rw [memberTokens, ih, List.map_cons, ofMember]

lemma tokenList_array (ds : List Draft) (ending : Ending) :
    (Draft.array ds ending).tokenList =
      .openArray :: [Token.comma].intercalate (ds.map tokenList) ++ [.closeArray] := by
  rw [tokenList, itemTokens_eq]

lemma tokenList_object (ms : List (StringText × Draft)) (ending : Ending) :
    (Draft.object ms ending).tokenList =
      .openObject :: [Token.comma].intercalate (ms.map ofMember) ++ [.closeObject] := by
  rw [tokenList, memberTokens_eq]

/-! ## Commas -/

variable {α : Type}

/-- Parts with a comma behind each. -/
def withCommas (tokensOf : α → List Token) (parts : List α) : List Token :=
  parts.flatMap fun part => tokensOf part ++ [.comma]

/-- Parts with a comma in front of each. -/
def afterCommas (tokensOf : α → List Token) (parts : List α) : List Token :=
  parts.flatMap fun part => .comma :: tokensOf part

@[simp]
lemma withCommas_nil (tokensOf : α → List Token) : withCommas tokensOf [] = [] := rfl

lemma withCommas_cons (tokensOf : α → List Token) (part : α) (parts : List α) :
    withCommas tokensOf (part :: parts) = tokensOf part ++ [.comma] ++ withCommas tokensOf parts :=
  List.flatMap_cons

@[simp]
lemma withCommas_concat (tokensOf : α → List Token) (parts : List α) (part : α) :
    withCommas tokensOf (parts ++ [part]) =
      withCommas tokensOf parts ++ (tokensOf part ++ [.comma]) := by
  simp [withCommas]

lemma afterCommas_cons (tokensOf : α → List Token) (part : α) (parts : List α) :
    afterCommas tokensOf (part :: parts) =
      .comma :: (tokensOf part ++ afterCommas tokensOf parts) := by
  simp [afterCommas]

lemma intercalate_cons (tokensOf : α → List Token) (part : α) (parts : List α) :
    [Token.comma].intercalate ((part :: parts).map tokensOf) =
      tokensOf part ++ afterCommas tokensOf parts := by
  induction parts generalizing part with
  | nil => simp [afterCommas]
  | cons next parts ih =>
    rw [List.map_cons, List.map_cons, List.intercalate_cons_cons, ← List.map_cons, ih,
      afterCommas_cons, List.append_assoc, List.singleton_append]

lemma intercalate_concat (tokensOf : α → List Token) (parts : List α) (part : α) :
    [Token.comma].intercalate ((parts ++ [part]).map tokensOf) =
      withCommas tokensOf parts ++ tokensOf part := by
  induction parts with
  | nil => simp
  | cons first parts ih =>
    have hne : (parts ++ [part]).map tokensOf ≠ [] := by simp
    obtain ⟨next, rest, hnext⟩ := List.exists_cons_of_ne_nil hne
    rw [List.cons_append, List.map_cons, hnext, List.intercalate_cons_cons, ← hnext, ih,
      withCommas_cons]
    simp only [List.append_assoc]

lemma tokenList_array_cons (d : Draft) (ds : List Draft) (ending : Ending) (ts : List Token) :
    (Draft.array (d :: ds) ending).tokenList ++ ts =
      .openArray :: (d.tokenList ++ (afterCommas tokenList ds ++ .closeArray :: ts)) := by
  rw [tokenList_array, intercalate_cons]
  simp

lemma tokenList_object_cons (m : StringText × Draft) (ms : List (StringText × Draft))
    (ending : Ending) (ts : List Token) :
    (Draft.object (m :: ms) ending).tokenList ++ ts =
      .openObject :: (ofMember m ++ (afterCommas ofMember ms ++ .closeObject :: ts)) := by
  rw [tokenList_object, intercalate_cons]
  simp

lemma tokenList_array_concat (ds : List Draft) (d : Draft) (ending : Ending) :
    (Draft.array (ds ++ [d]) ending).tokenList =
      .openArray :: withCommas tokenList ds ++ d.tokenList ++ [.closeArray] := by
  rw [tokenList_array, intercalate_concat]
  rfl

lemma tokenList_object_concat (ms : List (StringText × Draft)) (m : StringText × Draft)
    (ending : Ending) :
    (Draft.object (ms ++ [m]) ending).tokenList =
      .openObject :: withCommas ofMember ms ++ ofMember m ++ [.closeObject] := by
  rw [tokenList_object, intercalate_concat]
  rfl

/-! ## From the tokens to the tree -/

/-- A value may begin wherever one is waited for. -/
lemma step_value {token : Token} (hclose : token ≠ .closeArray) (stack : List Frame) :
    step .value stack token = beginValue stack token := by
  unfold step
  split <;> first | rfl | contradiction

lemma run_begin (stack : List Frame) (ts : List Token) (token : Token) {next : Waiting}
    {inner : List Frame} (hclose : token ≠ .closeArray)
    (hbegin : beginValue stack token = .go next inner) :
    run .value stack (token :: ts) = run next inner ts := by
  rw [run, step_value hclose, hbegin]
  exact nofun

/-- The first item of an array is read as any other. -/
lemma run_firstItem {d : Draft} (hd : d.Whole) (stack : List Frame) (ts : List Token) :
    run .itemOrEnd stack (d.tokenList ++ ts) =
      run .value (.items [] :: stack) (d.tokenList ++ ts) := by
  cases d with
  | broken fault => exact absurd hd (not_whole_broken fault)
  | null => rw [tokenList]; rfl
  | bool b => rw [tokenList]; rfl
  | number t => rw [tokenList]; rfl
  | string t => rw [tokenList]; rfl
  | array ds ending => rw [tokenList]; rfl
  | object ms ending => rw [tokenList]; rfl

mutual

/-- The automaton makes a tree of its tokens. -/
theorem run_tokenList : ∀ (d : Draft), d.Whole → ∀ (stack : List Frame) (ts : List Token),
    run .value stack (d.tokenList ++ ts) = run (.after d) stack ts
  | .null, _, stack, ts => by
    rw [tokenList]
    exact run_begin stack ts .null nofun rfl
  | .bool b, _, stack, ts => by
    rw [tokenList]
    exact run_begin stack ts (.bool b) nofun rfl
  | .number t, _, stack, ts => by
    rw [tokenList]
    exact run_begin stack ts (.number t) nofun rfl
  | .string t, _, stack, ts => by
    rw [tokenList]
    exact run_begin stack ts (.string t) nofun rfl
  | .array [] _, h, stack, ts => by
    rw [Whole] at h
    rw [tokenList, itemTokens, h.2]
    exact run_begin stack (.closeArray :: ts) .openArray nofun rfl
  | .array (d :: ds) _, h, stack, ts => by
    rw [Whole, WholeItems] at h
    have hd := run_tokenList d h.1.1 (.items [] :: stack)
      (afterCommas tokenList ds ++ .closeArray :: ts)
    have hds := run_afterItems ds h.1.2 [] d stack ts
    have hbegin := run_begin stack (d.tokenList ++ (afterCommas tokenList ds ++ .closeArray :: ts))
      .openArray nofun rfl
    rw [h.2, tokenList_array_cons, hbegin, run_firstItem h.1.1, hd, hds]
    rfl
  | .object [] _, h, stack, ts => by
    rw [Whole] at h
    rw [tokenList, memberTokens, h.2]
    exact run_begin stack (.closeObject :: ts) .openObject nofun rfl
  | .object ((key, d) :: ms) _, h, stack, ts => by
    rw [Whole, WholeMembers] at h
    have hd := run_tokenList d h.1.1.2 (.members [] key :: stack)
      (afterCommas ofMember ms ++ .closeObject :: ts)
    have hms := run_afterMembers ms h.1.2 [] key d stack ts
    have hbegin := run_begin stack
      (ofMember (key, d) ++ (afterCommas ofMember ms ++ .closeObject :: ts)) .openObject nofun rfl
    rw [h.2, tokenList_object_cons, hbegin]
    exact hd.trans hms
  | .broken fault, h, _, _ => absurd h (not_whole_broken fault)

theorem run_afterItems : ∀ (ds : List Draft), WholeItems ds → ∀ (before : List Draft) (d : Draft)
    (outer : List Frame) (ts : List Token),
    run (.after d) (.items before :: outer) (afterCommas tokenList ds ++ .closeArray :: ts) =
      run (.after (.array (before ++ d :: ds) .closed)) outer ts
  | [], _, before, d, outer, ts => rfl
  | next :: ds, h, before, d, outer, ts => by
    rw [WholeItems] at h
    have hnext := run_tokenList next h.1 (.items (before ++ [d]) :: outer)
      (afterCommas tokenList ds ++ .closeArray :: ts)
    have hds := run_afterItems ds h.2 (before ++ [d]) next outer ts
    rw [afterCommas_cons, List.cons_append, List.append_assoc]
    rw [List.append_assoc, List.singleton_append] at hds
    exact hnext.trans hds

theorem run_afterMembers : ∀ (ms : List (StringText × Draft)), WholeMembers ms →
    ∀ (before : List (StringText × Draft)) (key : StringText) (d : Draft) (outer : List Frame)
      (ts : List Token),
    run (.after d) (.members before key :: outer) (afterCommas ofMember ms ++ .closeObject :: ts) =
      run (.after (.object (before ++ (key, d) :: ms) .closed)) outer ts
  | [], _, before, key, d, outer, ts => rfl
  | (next, e) :: ms, h, before, key, d, outer, ts => by
    rw [WholeMembers] at h
    have hnext := run_tokenList e h.1.2 (.members (before ++ [(key, d)]) next :: outer)
      (afterCommas ofMember ms ++ .closeObject :: ts)
    have hms := run_afterMembers ms h.2 (before ++ [(key, d)]) next e outer ts
    rw [afterCommas_cons, List.cons_append, List.append_assoc]
    rw [List.append_assoc, List.singleton_append] at hms
    exact hnext.trans hms

end

/-! ## From the tree to the tokens -/

/-- The tokens of an open array or object, up to the value that is being read. -/
def ofFrame : Frame → List Token
  | .items before => .openArray :: withCommas tokenList before
  | .members before key => .openObject :: withCommas ofMember before ++ [.string key, .colon]

/-- The tokens of all that is open. -/
def ofStack : List Frame → List Token
  | [] => []
  | frame :: outer => ofStack outer ++ ofFrame frame

/-- The tokens of what was read within the innermost array or object that is not yet put away. -/
def ofWaiting : Waiting → List Token
  | .value => []
  | .itemOrEnd => [.openArray]
  | .keyOrEnd => [.openObject]
  | .key before => .openObject :: withCommas ofMember before
  | .colon before key => .openObject :: withCommas ofMember before ++ [.string key]
  | .after d => d.tokenList

/-- The tokens that were taken. -/
def passed (waiting : Waiting) (stack : List Frame) : List Token :=
  ofStack stack ++ ofWaiting waiting

/-- The value is not complete. -/
def Unfinished (waiting : Waiting) (stack : List Frame) : Prop :=
  ∀ d, waiting = .after d → stack ≠ []

lemma unfinished_or (waiting : Waiting) (stack : List Frame) :
    Unfinished waiting stack ∨ ∃ d, waiting = .after d ∧ stack = [] := by
  by_cases h : Unfinished waiting stack
  · exact .inl h
  · simp only [Unfinished, not_forall, ne_eq, not_not] at h
    obtain ⟨d, hwaiting, hstack⟩ := h
    exact .inr ⟨d, hwaiting, hstack⟩

/-- A step takes its token, or it gives up with a draft that is no tree. -/
def Step.Accounts (taken : List Token) : Step → Prop
  | .go next stack => passed next stack = taken
  | .stop d => ¬ d.Whole

variable {waiting : Waiting} {stack : List Frame} {token : Token} {d : Draft}

/-- Nothing that is enclosed is a tree, since it is not known to end. -/
lemma not_whole_enclose (hd : ¬ d.Whole) (stack : List Frame) : ¬ (enclose stack d).Whole := by
  induction stack generalizing d with
  | nil => exact hd
  | cons frame outer ih =>
    cases frame with
    | items before => exact ih (by simp)
    | members before key => exact ih (by simp)

lemma beginValue_accounts (stack : List Frame) (token : Token) :
    (beginValue stack token).Accounts (ofStack stack ++ [token]) := by
  cases token with
  | openArray => rfl
  | openObject => rfl
  | null => simp [beginValue, Step.Accounts, passed, ofWaiting, tokenList]
  | bool b => simp [beginValue, Step.Accounts, passed, ofWaiting, tokenList]
  | number t => simp [beginValue, Step.Accounts, passed, ofWaiting, tokenList]
  | string t => simp [beginValue, Step.Accounts, passed, ofWaiting, tokenList]
  | _ => exact not_whole_enclose (not_whole_broken _) stack

lemma beginKey_accounts (stack : List Frame) (before : List (StringText × Draft)) (token : Token) :
    (beginKey stack before token).Accounts (passed (.key before) stack ++ [token]) := by
  cases token with
  | string key => simp [beginKey, Step.Accounts, passed, ofWaiting]
  | _ => exact not_whole_enclose (by simp) stack

/-- After an item the array goes on or ends. -/
lemma step_afterItem_accounts (d : Draft) (before : List Draft) (outer : List Frame)
    (token : Token) :
    (step (.after d) (.items before :: outer) token).Accounts
      (passed (.after d) (.items before :: outer) ++ [token]) := by
  cases token with
  | comma => simp [step, Step.Accounts, passed, ofStack, ofFrame, ofWaiting]
  | closeArray =>
    simp [step, Step.Accounts, passed, ofStack, ofFrame, ofWaiting, tokenList_array_concat]
  | _ => exact not_whole_enclose (by simp) outer

/-- After a member the object goes on or ends. -/
lemma step_afterMember_accounts (d : Draft) (before : List (StringText × Draft)) (key : StringText)
    (outer : List Frame) (token : Token) :
    (step (.after d) (.members before key :: outer) token).Accounts
      (passed (.after d) (.members before key :: outer) ++ [token]) := by
  cases token with
  | comma => simp [step, Step.Accounts, passed, ofStack, ofFrame, ofWaiting, ofMember]
  | closeObject =>
    simp [step, Step.Accounts, passed, ofStack, ofFrame, ofWaiting, tokenList_object_concat,
      ofMember]
  | _ => exact not_whole_enclose (by simp) outer

lemma step_accounts (waiting : Waiting) (stack : List Frame) (token : Token)
    (hopen : Unfinished waiting stack) :
    (step waiting stack token).Accounts (passed waiting stack ++ [token]) := by
  cases waiting with
  | value =>
    have hbegin := beginValue_accounts stack token
    by_cases hclose : token = .closeArray
    · subst hclose
      -- the bracket after a comma: no value begins with it, whatever is open
      match stack with
      | [] => exact hbegin
      | .items before :: outer => exact not_whole_enclose (by simp) outer
      | .members before key :: outer => exact hbegin
    · rw [step_value hclose, passed, ofWaiting, List.append_nil]
      exact hbegin
  | itemOrEnd =>
    have hbegin := beginValue_accounts (.items [] :: stack) token
    cases token with
    | closeArray => simp [step, Step.Accounts, passed, ofWaiting, tokenList_array]
    | _ => exact hbegin
  | keyOrEnd =>
    cases token with
    | closeObject => simp [step, Step.Accounts, passed, ofWaiting, tokenList_object]
    | string key => simp [step, Step.Accounts, passed, ofWaiting]
    | _ => exact not_whole_enclose (by simp) stack
  | key before => exact beginKey_accounts stack before token
  | colon before key =>
    cases token with
    | colon => simp [step, Step.Accounts, passed, ofStack, ofFrame, ofWaiting]
    | _ => exact not_whole_enclose (not_whole_broken _) (.members before key :: stack)
  | after d =>
    cases stack with
    | nil => exact absurd rfl (hopen d rfl)
    | cons frame outer =>
      cases frame with
      | items before => exact step_afterItem_accounts d before outer token
      | members before key => exact step_afterMember_accounts d before key outer token

/-- A text that ends before its value does is read as no tree. -/
lemma not_whole_atEnd (waiting : Waiting) (stack : List Frame)
    (hopen : Unfinished waiting stack) : ¬ (atEnd waiting stack).Whole := by
  cases waiting with
  | value =>
    match stack with
    | [] => exact not_whole_enclose (not_whole_broken _) []
    | .items before :: outer => exact not_whole_enclose (by simp) outer
    | .members before key :: outer =>
      exact not_whole_enclose (not_whole_broken _) (.members before key :: outer)
  | itemOrEnd => exact not_whole_enclose (by simp) stack
  | keyOrEnd => exact not_whole_enclose (by simp) stack
  | key before => exact not_whole_enclose (by simp) stack
  | colon before key =>
    exact not_whole_enclose (not_whole_broken _) (.members before key :: stack)
  | after d =>
    match stack with
    | [] => exact absurd rfl (hopen d rfl)
    | .items before :: outer => exact not_whole_enclose (by simp) outer
    | .members before key :: outer => exact not_whole_enclose (by simp) outer

lemma run_cons (hopen : Unfinished waiting stack) (token : Token) (ts : List Token) :
    run waiting stack (token :: ts) =
      match step waiting stack token with
      | .go next stack => run next stack ts
      | .stop d => (d, ts) := by
  cases waiting with
  | after d =>
    cases stack with
    | nil => exact absurd rfl (hopen d rfl)
    | cons frame outer => rfl
  | _ => rfl

lemma run_finished (d : Draft) (ts : List Token) : run (.after d) [] ts = (d, ts) := by
  cases ts <;> rfl

/-- A tree that was read has the tokens that were taken. -/
theorem passed_of_run {ts rest : List Token} (hrun : run waiting stack ts = (d, rest))
    (hd : d.Whole) : passed waiting stack ++ ts = d.tokenList ++ rest := by
  induction ts generalizing waiting stack with
  | nil =>
    obtain hopen | ⟨e, rfl, rfl⟩ := unfinished_or waiting stack
    · obtain ⟨rfl, rfl⟩ := Prod.mk.inj hrun
      exact absurd hd (not_whole_atEnd waiting stack hopen)
    · obtain ⟨rfl, rfl⟩ := Prod.mk.inj ((run_finished e []).symm.trans hrun)
      rfl
  | cons token ts ih =>
    obtain hopen | ⟨e, rfl, rfl⟩ := unfinished_or waiting stack
    · have haccounts := step_accounts waiting stack token hopen
      rw [run_cons hopen] at hrun
      split at hrun
      next next inner hstep =>
        rw [hstep] at haccounts
        have hpassed := ih hrun
        rw [haccounts, List.append_assoc] at hpassed
        exact hpassed
      next e hstep =>
        obtain ⟨rfl, rfl⟩ := Prod.mk.inj hrun
        rw [hstep] at haccounts
        exact absurd hd haccounts
    · obtain ⟨rfl, rfl⟩ := Prod.mk.inj ((run_finished e (token :: ts)).symm.trans hrun)
      rfl

end Draft

/-! ## Texts -/

/-- The text spells the tree. -/
def Spells (x : List Char) (d : Draft) : Prop := d.Whole ∧ tokens x = d.tokenList

/-- A text spells a tree exactly if it is read as that tree and nothing follows it but spaces. -/
theorem spells_iff {x : List Char} {d : Draft} :
    Spells x d ↔ d.Whole ∧ Draft.read x = (d, false) := by
  refine and_congr_right fun hd => ⟨fun h => ?_, fun h => ?_⟩
  · have hrun := Draft.run_tokenList d hd [] []
    rw [List.append_nil] at hrun
    rw [Draft.read, h, hrun]
    rfl
  · obtain ⟨hread, hrest⟩ := Prod.mk.inj h
    rw [Bool.not_eq_false', List.isEmpty_iff] at hrest
    have hpassed := Draft.passed_of_run (Prod.ext hread hrest) hd
    rw [List.append_nil] at hpassed
    exact hpassed

/-- A text spells one tree at most. -/
theorem Spells.unique {x : List Char} {d e : Draft} (hd : Spells x d) (he : Spells x e) :
    d = e := by
  have h := (spells_iff.1 hd).2.symm.trans (spells_iff.1 he).2
  exact congrArg Prod.fst h

end AgentScript.Json
