import AgentScript.Proofs.Json.Numbers
import AgentScript.Proofs.Json.Spelling

/-!
# Documents come back

A value that is written over several lines comes back as a *draft* of the same shape, with every
string as its units and every number as its digits (`decodeText_pretty`).  Writing and reading are
compared token by token: the tokens of what was written are those of the value, since only spaces
stand between them (`Value.tokens_printPretty`), and they are also those of its draft
(`Value.tokenList_draft`), so what was written spells the draft.

All of this is asked of values whose numbers are written as numbers, which those that are not finite
are not.
-/

namespace AgentScript.Json

variable {cs more : List Char}

/-! ## Tokens -/

namespace Value

mutual

/-- A value whose numbers are all written as numbers. -/
def Readable : Value → Prop
  | .number n => (numberText? (printNumber n)).isSome
  | .array items => ReadableItems items
  | .object members => ReadableMembers members
  | _ => True

def ReadableItems : List Value → Prop
  | [] => True
  | v :: vs => v.Readable ∧ ReadableItems vs

def ReadableMembers : List (String × Value) → Prop
  | [] => True
  | (_, v) :: ms => v.Readable ∧ ReadableMembers ms

end

/-- A number as it is read where it was written. -/
def printedNumber (n : Number) : NumberText := (numberText? (printNumber n)).getD default

mutual

/-- The tokens of a value. -/
def tokenList : Value → List Token
  | .null => [.null]
  | .bool b => [.bool b]
  | .number n => [.number (printedNumber n)]
  | .string s => [.string (printedText s)]
  | .array [] => [.openArray, .closeArray]
  | .array (v :: vs) => .openArray :: tokenList v ++ itemTokens vs ++ [.closeArray]
  | .object [] => [.openObject, .closeObject]
  | .object ((k, v) :: ms) =>
    .openObject :: .string (printedText k) :: .colon :: tokenList v ++ memberTokens ms ++
      [.closeObject]

def itemTokens : List Value → List Token
  | [] => []
  | v :: vs => .comma :: tokenList v ++ itemTokens vs

def memberTokens : List (String × Value) → List Token
  | [] => []
  | (k, v) :: ms => .comma :: .string (printedText k) :: .colon :: tokenList v ++ memberTokens ms

end

end Value

/-! ## Writing token by token -/

lemma tokens_replicate_space (n : Nat) (cs : List Char) :
    tokens (List.replicate n ' ' ++ cs) = tokens cs := by
  induction n with
  | zero => rfl
  | succ n ih => rw [List.replicate_succ, List.cons_append, tokens_space (by decide), ih]

lemma tokens_newLine (level : Nat) (cs : List Char) : tokens (newLine level ++ cs) = tokens cs := by
  rw [newLine, List.cons_append, tokens_space (by decide), tokens_replicate_space]

lemma tokens_comma (cs : List Char) : tokens (',' :: cs) = .comma :: tokens cs :=
  tokens_cons (by decide) rfl fun _ => nofun

lemma tokens_colon (cs : List Char) : tokens (':' :: ' ' :: cs) = .colon :: tokens cs := by
  have hcolon : tokens (':' :: ' ' :: cs) = .colon :: tokens (' ' :: cs) :=
    tokens_cons (by decide) rfl fun _ => nofun
  rw [hcolon, tokens_space (by decide)]

lemma tokens_openArray (cs : List Char) : tokens ('[' :: cs) = .openArray :: tokens cs :=
  tokens_cons (by decide) rfl fun _ => nofun

lemma tokens_closeArray (cs : List Char) : tokens (']' :: cs) = .closeArray :: tokens cs :=
  tokens_cons (by decide) rfl fun _ => nofun

lemma tokens_openObject (cs : List Char) : tokens ('{' :: cs) = .openObject :: tokens cs :=
  tokens_cons (by decide) rfl fun _ => nofun

lemma tokens_closeObject (cs : List Char) : tokens ('}' :: cs) = .closeObject :: tokens cs :=
  tokens_cons (by decide) rfl fun _ => nofun

lemma endsNumber_newLine (level : Nat) (cs : List Char) : EndsNumber (newLine level ++ cs) :=
  endsNumber_cons (by decide) (by decide) (by decide) (by decide) _

lemma endsNumber_comma (cs : List Char) : EndsNumber (',' :: cs) :=
  endsNumber_cons (by decide) (by decide) (by decide) (by decide) _

namespace Value

lemma endsNumber_prettyItems (h : EndsNumber more) (level : Nat) (vs : List Value) :
    EndsNumber (prettyItems level vs ++ more) := by
  cases vs with
  | nil =>
    rw [prettyItems]
    exact h
  | cons v vs =>
    rw [prettyItems]
    exact endsNumber_comma _

lemma endsNumber_prettyMembers (h : EndsNumber more) (level : Nat) (ms : List (String × Value)) :
    EndsNumber (prettyMembers level ms ++ more) := by
  cases ms with
  | nil =>
    rw [prettyMembers]
    exact h
  | cons m ms =>
    obtain ⟨k, v⟩ := m
    rw [prettyMembers]
    exact endsNumber_comma _

mutual

/-- The tokens of what was written are those of the value. -/
theorem tokens_printPretty (level : Nat) : ∀ v : Value, v.Readable → ∀ more, EndsNumber more →
    tokens (printPretty level v ++ more) = v.tokenList ++ tokens more
  | .null, _, more, _ => by
    rw [printPretty, tokenList]
    exact tokens_cons (by decide) rfl fun _ => nofun
  | .bool b, _, more, _ => by
    rw [printPretty, tokenList]
    cases b <;> exact tokens_cons (by decide) rfl fun _ => nofun
  | .number n, h, more, hmore => by
    rw [Readable] at h
    obtain ⟨t, ht⟩ := Option.isSome_iff_exists.1 h
    rw [printPretty, tokenList, printedNumber, ht, tokens_number ht hmore]
    rfl
  | .string s, _, more, _ => by
    rw [printPretty, tokenList, tokens_printString]
    rfl
  | .array [], _, more, _ => by
    rw [printPretty, tokenList, List.cons_append, List.cons_append, tokens_openArray,
      tokens_closeArray]
    rfl
  | .array (v :: vs), h, more, hmore => by
    rw [Readable, ReadableItems] at h
    have hv := tokens_printPretty (level + 1) v h.1
    have hvs := tokens_prettyItems (level + 1) vs h.2
    have hline := endsNumber_newLine level (']' :: more)
    simp only [printPretty, tokenList, List.cons_append, List.append_assoc, List.nil_append,
      tokens_openArray, tokens_newLine, tokens_closeArray,
      hv _ (endsNumber_prettyItems hline (level + 1) vs), hvs _ hline]
  | .object [], _, more, _ => by
    rw [printPretty, tokenList, List.cons_append, List.cons_append, tokens_openObject,
      tokens_closeObject]
    rfl
  | .object ((k, v) :: ms), h, more, hmore => by
    rw [Readable, ReadableMembers] at h
    have hv := tokens_printPretty (level + 1) v h.1
    have hms := tokens_prettyMembers (level + 1) ms h.2
    have hline := endsNumber_newLine level ('}' :: more)
    simp only [printPretty, tokenList, List.cons_append, List.append_assoc, List.nil_append,
      tokens_openObject, tokens_newLine, tokens_closeObject, tokens_printString, tokens_colon,
      hv _ (endsNumber_prettyMembers hline (level + 1) ms), hms _ hline]

theorem tokens_prettyItems (level : Nat) : ∀ vs : List Value, ReadableItems vs →
    ∀ more, EndsNumber more →
      tokens (prettyItems level vs ++ more) = itemTokens vs ++ tokens more
  | [], _, more, _ => by rw [prettyItems, itemTokens]; rfl
  | v :: vs, h, more, hmore => by
    rw [ReadableItems] at h
    have hv := tokens_printPretty level v h.1
    have hvs := tokens_prettyItems level vs h.2
    simp only [prettyItems, itemTokens, List.cons_append, List.append_assoc, tokens_comma,
      tokens_newLine, hv _ (endsNumber_prettyItems hmore level vs), hvs _ hmore]

theorem tokens_prettyMembers (level : Nat) : ∀ ms : List (String × Value), ReadableMembers ms →
    ∀ more, EndsNumber more →
      tokens (prettyMembers level ms ++ more) = memberTokens ms ++ tokens more
  | [], _, more, _ => by rw [prettyMembers, memberTokens]; rfl
  | (k, v) :: ms, h, more, hmore => by
    rw [ReadableMembers] at h
    have hv := tokens_printPretty level v h.1
    have hms := tokens_prettyMembers level ms h.2
    simp only [prettyMembers, memberTokens, List.cons_append, List.append_assoc, List.nil_append,
      tokens_comma, tokens_newLine, tokens_printString, tokens_colon,
      hv _ (endsNumber_prettyMembers hmore level ms), hms _ hmore]

end

end Value

/-! ## Reading token by token -/

namespace Value

mutual

/-- What is read where a value was written. -/
def draft : Value → Draft
  | .null => .null
  | .bool b => .bool b
  | .number n => .number (printedNumber n)
  | .string s => .string (printedText s)
  | .array items => .array (itemDrafts items) .closed
  | .object members => .object (memberDrafts members) .closed

def itemDrafts : List Value → List Draft
  | [] => []
  | v :: vs => draft v :: itemDrafts vs

def memberDrafts : List (String × Value) → List (StringText × Draft)
  | [] => []
  | (k, v) :: ms => (printedText k, draft v) :: memberDrafts ms

end

mutual

/-- What is read where a value was written has no fault. -/
theorem whole_draft : ∀ v : Value, v.draft.Whole
  | .null => trivial
  | .bool _ => trivial
  | .number _ => trivial
  | .string _ => by rw [draft, Draft.whole_string]; rfl
  | .array vs => by
    rw [draft, Draft.Whole]
    exact ⟨whole_itemDrafts vs, rfl⟩
  | .object ms => by
    rw [draft, Draft.Whole]
    exact ⟨whole_memberDrafts ms, rfl⟩

theorem whole_itemDrafts : ∀ vs : List Value, Draft.WholeItems (itemDrafts vs)
  | [] => trivial
  | v :: vs => by
    rw [itemDrafts, Draft.WholeItems]
    exact ⟨whole_draft v, whole_itemDrafts vs⟩

theorem whole_memberDrafts : ∀ ms : List (String × Value), Draft.WholeMembers (memberDrafts ms)
  | [] => trivial
  | (k, v) :: ms => by
    rw [memberDrafts, Draft.WholeMembers]
    exact ⟨⟨rfl, whole_draft v⟩, whole_memberDrafts ms⟩

end

mutual

/-- The draft of a value has the tokens of the value. -/
theorem tokenList_draft : ∀ v : Value, v.draft.tokenList = v.tokenList
  | .null => by rw [draft, tokenList, Draft.tokenList]
  | .bool b => by rw [draft, tokenList, Draft.tokenList]
  | .number n => by rw [draft, tokenList, Draft.tokenList]
  | .string s => by rw [draft, tokenList, Draft.tokenList]
  | .array [] => by rw [draft, itemDrafts, tokenList, Draft.tokenList_array]; rfl
  | .array (v :: vs) => by
    have hvs := afterCommas_itemDrafts vs
    rw [draft, itemDrafts, tokenList, ← List.append_nil (Draft.tokenList _),
      Draft.tokenList_array_cons, tokenList_draft v, hvs]
    simp
  | .object [] => by rw [draft, memberDrafts, tokenList, Draft.tokenList_object]; rfl
  | .object ((k, v) :: ms) => by
    have hms := afterCommas_memberDrafts ms
    rw [draft, memberDrafts, tokenList, ← List.append_nil (Draft.tokenList _),
      Draft.tokenList_object_cons, Draft.ofMember, tokenList_draft v, hms]
    simp

theorem afterCommas_itemDrafts : ∀ vs : List Value,
    Draft.afterCommas Draft.tokenList (itemDrafts vs) = itemTokens vs
  | [] => by rw [itemDrafts, itemTokens]; rfl
  | v :: vs => by
    rw [itemDrafts, itemTokens, Draft.afterCommas_cons, tokenList_draft v,
      afterCommas_itemDrafts vs, List.cons_append]

theorem afterCommas_memberDrafts : ∀ ms : List (String × Value),
    Draft.afterCommas Draft.ofMember (memberDrafts ms) = memberTokens ms
  | [] => by rw [memberDrafts, memberTokens]; rfl
  | (k, v) :: ms => by
    rw [memberDrafts, memberTokens, Draft.afterCommas_cons, Draft.ofMember, tokenList_draft v,
      afterCommas_memberDrafts ms]
    rfl

end

end Value

namespace Draft

/-- A value that was written is read as its draft, and nothing follows it but spaces. -/
theorem read_pretty {v : Value} (h : v.Readable) (hends : EndsNumber more)
    (hspaces : tokens more = []) : read (v.printPretty 0 ++ more) = (v.draft, false) := by
  have htokens := v.tokens_printPretty 0 h more hends
  rw [hspaces, List.append_nil, ← v.tokenList_draft] at htokens
  exact (spells_iff.1 ⟨v.whole_draft, htokens⟩).2

end Draft

/-- A document is decoded as the draft of what was written. -/
theorem decodeText_pretty {α : Type} (decode : Draft → Decoded α) {v : Value} (h : v.Readable)
    {tail : String} (hends : EndsNumber tail.toList) (hspaces : tokens tail.toList = []) :
    decodeText decode (v.pretty ++ tail) = decode v.draft := by
  have hread := Draft.read_pretty h hends hspaces
  rw [decodeText, Value.pretty, String.toList_append, String.toList_ofList, hread]
  cases hdecode : decode v.draft <;> simp only [hdecode] <;> rfl

/-! ## What is asked of the parts -/

namespace Value

@[simp]
lemma readable_string (s : String) : (Value.string s).Readable := trivial

@[simp]
lemma readable_bool (b : Bool) : (Value.bool b).Readable := trivial

@[simp]
lemma readable_null : Value.null.Readable := trivial

lemma readableItems_iff (vs : List Value) : ReadableItems vs ↔ ∀ v ∈ vs, v.Readable := by
  induction vs with
  | nil => simp [ReadableItems]
  | cons v vs ih => rw [ReadableItems, ih, List.forall_mem_cons]

lemma readableMembers_iff (ms : List (String × Value)) :
    ReadableMembers ms ↔ ∀ m ∈ ms, m.2.Readable := by
  induction ms with
  | nil => simp [ReadableMembers]
  | cons m ms ih => rw [ReadableMembers, ih, List.forall_mem_cons]

@[simp]
lemma readable_array (vs : List Value) : (Value.array vs).Readable ↔ ∀ v ∈ vs, v.Readable := by
  rw [Readable, readableItems_iff]

@[simp]
lemma readable_object (ms : List (String × Value)) :
    (Value.object ms).Readable ↔ ∀ m ∈ ms, m.2.Readable := by
  rw [Readable, readableMembers_iff]

lemma itemDrafts_eq (vs : List Value) : itemDrafts vs = vs.map draft := by
  induction vs with
  | nil => rw [itemDrafts, List.map_nil]
  | cons v vs ih => rw [itemDrafts, ih, List.map_cons]

lemma memberDrafts_eq (ms : List (String × Value)) :
    memberDrafts ms = ms.map fun m => (printedText m.1, m.2.draft) := by
  induction ms with
  | nil => rw [memberDrafts, List.map_nil]
  | cons m ms ih => rw [memberDrafts, ih, List.map_cons]

end Value

end AgentScript.Json
