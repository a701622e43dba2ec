import AgentScript.Proofs.Script.Braces
import AgentScript.Proofs.Script.Trimming

/-!
# The skeleton of a script

What gives a script its structure is written in its masked lines: the braces that stand outside
literals and comments, some of which end a header.  The *skeleton* of a script is the list of these
braces (`braces`), each opening one with the header it ends.

Which headers a line has depends on the braces before it, since a line that begins right within a
body of fields has none (`headersOf`).  An *occurrence* is such a header together with the braces
before it, so that what encloses a declaration is told by the skeleton alone.

Headers are read from the line as it stands, while braces are counted in the masked line.  The two
agree where the parameters of tools hold nothing that masking or counting takes notice of
(`Header.HasPlainParams`): then the braces of the headers are the first braces of the masked line,
and the other ones are those of the body text (`lineBraces_eq`).
-/

namespace AgentScript.Script

open AgentScript.Text

/-! ## Headers that masking leaves as they are -/

instance : DecidablePred Plain := fun cs =>
  decidable_of_iff ((∀ c ∈ cs, isMark c = false) ∧ ¬ ['/', '/'] <:+: cs)
    ⟨fun h => ⟨h.1, h.2⟩, fun h => ⟨h.isMark_eq_false, h.not_comment⟩⟩

/-- Whether the parameters of the header, if it is a tool's, hold no quote, no grave accent, no brace
and no comment sign. -/
def Header.HasPlainParams : Header → Prop
  | .tool _ params _ => Plain params.toList ∧ Braceless params.toList
  | _ => True

instance : DecidablePred Header.HasPlainParams := fun h => by
  unfold Header.HasPlainParams
  split <;> infer_instance

namespace Header

variable {word name : String} {cs rest left params : List Char} {returns : Option String}
  {h : Header}

/-- A keyword and a name are read with blanks between them, and with blanks at will behind the
name. -/
lemma readNamed_sound (hr : readNamed word cs = some (name, rest)) :
    ∃ gap blanks, gap ≠ [] ∧ (∀ b ∈ gap, isBlank b = true) ∧ (∀ b ∈ blanks, isBlank b = true) ∧
      isName name.toList = true ∧
        dropBlanks cs = word.toList ++ gap ++ name.toList ++ blanks ++ rest := by
  simp only [readNamed, Option.bind_eq_bind, Option.bind_eq_some_iff, Option.pure_def,
    Option.some.injEq, Prod.exists, Prod.mk.injEq] at hr
  obtain ⟨after, hafter, blank, hblank, letters, left, hname, rfl, rfl⟩ := hr
  obtain ⟨hisName, rfl⟩ := readName_sound hname
  obtain ⟨behind, hbehind, hleft⟩ := exists_dropBlanks left
  unfold readBlanks at hblank
  split at hblank
  next => cases hblank
  next c ds =>
    obtain ⟨hc, hdrop⟩ := Option.ite_none_right_eq_some.1 hblank
    rw [Option.some.injEq] at hdrop
    obtain ⟨inner, hinner, hds⟩ := exists_dropBlanks ds
    refine ⟨c :: inner, behind, List.cons_ne_nil _ _, List.forall_mem_cons.2 ⟨hc, hinner⟩, hbehind,
      by rwa [String.toList_ofList], ?_⟩
    rw [after?_eq_some_iff.1 hafter, hds, hdrop]
    nth_rewrite 1 [hleft]
    simp only [List.append_assoc, List.cons_append, String.toList_ofList]

lemma exists_of_readNamed_eq_some (hword : Inert word.toList)
    (hr : readNamed word cs = some (name, rest)) : ∃ front, cs = front ++ rest ∧ Inert front := by
  obtain ⟨gap, blanks, -, hgap, hblanks, hname, hread⟩ := readNamed_sound hr
  obtain ⟨before, hbefore, hcs⟩ := exists_dropBlanks cs
  rw [hread] at hcs
  refine ⟨before ++ (word.toList ++ gap ++ name.toList ++ blanks), ?_, ?_⟩
  · rw [hcs, List.append_assoc before]
  · exact (inert_of_isBlank hbefore).append (((hword.append (inert_of_isBlank hgap)).append
      (inert_of_isName hname)).append (inert_of_isBlank hblanks))

/-- Between the parameters of a tool and its brace stand blanks, or an arrow and a type with blanks
around them. -/
lemma readEnd_sound (hr : readEnd cs = some (returns, rest)) :
    ∃ before, (∀ b ∈ before, isBlank b = true) ∧
      ((returns = none ∧ cs = before ++ '{' :: rest) ∨
        ∃ inner type behind, (∀ b ∈ inner, isBlank b = true) ∧ (∀ b ∈ behind, isBlank b = true) ∧
          isType type.toList = true ∧ returns = some type ∧
            cs = before ++ "->".toList ++ inner ++ type.toList ++ behind ++ '{' :: rest) := by
  obtain ⟨before, hbefore, hcs⟩ := exists_dropBlanks cs
  refine ⟨before, hbefore, ?_⟩
  unfold readEnd at hr
  split at hr
  next letters after hreturns =>
    obtain ⟨body, hbrace, heq⟩ := Option.map_eq_some_iff.1 hr
    obtain ⟨rfl, rfl⟩ := Prod.mk.inj heq
    simp only [readReturns, Option.bind_eq_bind, Option.bind_eq_some_iff, expect_eq_some]
      at hreturns
    obtain ⟨_, hminus, type, rfl, htype⟩ := hreturns
    obtain ⟨inner, hinner, hdrop⟩ := exists_dropBlanks type
    obtain ⟨hisType, happend⟩ := readType_sound htype
    obtain ⟨behind, hbehind, hafter⟩ := exists_dropBlanks after
    rw [expect_eq_some.1 hbrace] at hafter
    refine .inr ⟨inner, String.ofList letters, behind, hinner, hbehind,
      by rwa [String.toList_ofList], rfl, ?_⟩
    rw [hcs, hminus, hdrop, ← happend, hafter]
    simp
  next =>
    obtain ⟨body, hbrace, heq⟩ := Option.map_eq_some_iff.1 hr
    obtain ⟨rfl, rfl⟩ := Prod.mk.inj heq
    rw [expect_eq_some.1 hbrace] at hcs
    exact .inl ⟨rfl, hcs⟩

/-- Between the parameters of a tool and its brace stands nothing that masking takes notice of. -/
lemma exists_of_readEnd (hr : readEnd cs = some (returns, rest)) :
    ∃ front, cs = front ++ '{' :: rest ∧ Inert front := by
  obtain ⟨before, hbefore, ⟨-, hcs⟩ | ⟨inner, type, behind, hinner, hbehind, htype, -, hcs⟩⟩ :=
    readEnd_sound hr
  · exact ⟨before, hcs, inert_of_isBlank hbefore⟩
  · have harrow : Inert "->".toList := by decide
    exact ⟨_, hcs, ((((inert_of_isBlank hbefore).append harrow).append
      (inert_of_isBlank hinner)).append (inert_of_isType htype)).append (inert_of_isBlank hbehind)⟩

lemma eq_append_of_readParams (hr : readParams cs = some (params, rest)) :
    cs = params ++ ')' :: rest := by
  unfold readParams at hr
  split at hr
  next => cases hr
  next c left hdrop =>
    obtain ⟨rfl, rfl⟩ := Prod.mk.inj (Option.some.inj hr)
    have hparen : c = ')' := by
      have hstop := List.head?_dropWhile_not (· != ')') cs
      rw [hdrop, List.head?_cons] at hstop
      simpa using hstop
    subst hparen
    rw [← hdrop, List.takeWhile_append_dropWhile]

/-- What stands before the brace of a header is left as it is and holds no brace. -/
theorem exists_of_read? (hr : read? cs = some (h, rest)) (hplain : h.HasPlainParams) :
    ∃ front, cs = front ++ '{' :: rest ∧ Plain front ∧ Braceless front := by
  rw [read?_eq_some_iff] at hr
  rcases hr with hr | hr | hr | hr | hr
  · obtain ⟨name, hname, -⟩ := readAgent_eq_some_iff.1 hr
    obtain ⟨front, hcs, hfront⟩ := exists_of_readNamed_eq_some (by decide) hname
    exact ⟨front, hcs, hfront.plain, hfront.braceless⟩
  · obtain ⟨name, left, params, after, returns, hname, hparams, hend, rfl⟩ :=
      readTool_eq_some_iff.1 hr
    obtain ⟨front, hcs, hfront⟩ := exists_of_readNamed_eq_some (by decide) hname
    obtain ⟨back, hafter, hback⟩ := exists_of_readEnd hend
    obtain ⟨before, behind, hbefore, hbehind, htrim⟩ := exists_trim params
    rw [HasPlainParams, String.toList_ofList] at hplain
    -- The text falls into inert parts and the parameters, which no solidus stands next to.
    have hopen : Inert (front ++ '(' :: before) :=
      hfront.append (.append (x := ['(']) (by decide) (inert_of_isBlank hbefore))
    have hclose : Inert (behind ++ ')' :: back) :=
      (inert_of_isBlank hbehind).append (.append (x := [')']) (by decide) hback)
    refine ⟨(front ++ '(' :: before) ++ (trim params ++ (behind ++ ')' :: back)), ?_, ?_, ?_⟩
    · rw [hcs, eq_append_of_readParams hparams, hafter]
      nth_rewrite 1 [htrim]
      simp
    · exact hopen.plain.append (hplain.1.append hclose.plain fun _ => hclose.head?_ne)
        fun hlast => absurd hlast hopen.getLast?_ne
    · exact hopen.braceless.append (hplain.2.append hclose.braceless)
  · obtain ⟨name, hname, -⟩ := readEvent_eq_some_iff.1 hr
    obtain ⟨front, hcs, hfront⟩ := exists_of_readNamed_eq_some (by decide) hname
    exact ⟨front, hcs, hfront.plain, hfront.braceless⟩
  · obtain ⟨after, hafter, hbrace, -⟩ := readState_eq_some_iff.1 hr
    obtain ⟨before, hbefore, hcs⟩ := exists_dropBlanks cs
    obtain ⟨behind, hbehind, hbody⟩ := exists_dropBlanks after
    have hinert : Inert (before ++ ("state".toList ++ behind)) :=
      (inert_of_isBlank hbefore).append (.append (by decide) (inert_of_isBlank hbehind))
    refine ⟨before ++ ("state".toList ++ behind), ?_, hinert.plain, hinert.braceless⟩
    rw [hcs, after?_eq_some_iff.1 hafter, hbody, hbrace]
    simp
  · obtain ⟨name, hname, -⟩ := readTypeDecl_eq_some_iff.1 hr
    obtain ⟨front, hcs, hfront⟩ := exists_of_readNamed_eq_some (by decide) hname
    exact ⟨front, hcs, hfront.plain, hfront.braceless⟩

end Header

/-! ## The braces of a line -/

/-- The braces of a masked text, the first opening ones of which end the given headers. -/
def tag (line : Nat) : List Opening → List Char → List Brace
  | _, [] => []
  | os, c :: cs =>
    if c = '{' then .opening ⟨line, os.head?⟩ :: tag line os.tail cs
    else if c = '}' then .closing line :: tag line os cs
    else tag line os cs

/-- The headers of a line that the given braces precede. -/
def headersOf (before : List Brace) (text : List Char) : List Opening :=
  if (matching before).unclosed.head?.any OpenBrace.holdsFields then [] else openings text

/-- The braces of a line that the given ones precede. -/
def lineBraces (line : Nat) (before : List Brace) (text : List Char) : List Brace :=
  tag line (headersOf before text) (mask .code text)

/-- The braces of the given lines, the first of which has the given number, behind the given
braces. -/
def bracesFrom (line : Nat) (before : List Brace) : List (List Char) → List Brace
  | [] => []
  | text :: later =>
    lineBraces line before text ++
      bracesFrom (line + 1) (before ++ lineBraces line before text) later

/-- The braces of a script. -/
def braces (text : String) : List Brace := bracesFrom 1 [] (scriptLines text)

/-- The character of a brace. -/
def Brace.char : Brace → Char
  | .opening _ => '{'
  | .closing _ => '}'

/-- The line of a brace. -/
def Brace.line : Brace → Nat
  | .opening b => b.line
  | .closing line => line

/-- The braces of a script as characters, each with its line. -/
def braceChars (text : String) : List (Nat × Char) :=
  (braces text).map fun x => (x.line, x.char)

/-- The braces that masking leaves in the given lines, the first of which has the given number. -/
def maskedBracesFrom (line : Nat) : List (List Char) → List (Nat × Char)
  | [] => []
  | text :: later =>
    (((mask .code text).filter fun c => c == '{' || c == '}').map (line, ·)) ++
      maskedBracesFrom (line + 1) later

/-- The braces that masking leaves in a script, each with its line. -/
def maskedBraces (text : String) : List (Nat × Char) := maskedBracesFrom 1 (scriptLines text)

/-- The braces of a line are those of the masked line, in their order. -/
lemma map_char_tag (line : Nat) (os : List Opening) (cs : List Char) :
    (tag line os cs).map (fun x => (x.line, x.char)) =
      (cs.filter fun c => c == '{' || c == '}').map (line, ·) := by
  induction cs generalizing os with
  | nil => rfl
  | cons c cs ih =>
    rw [tag]
    split_ifs with hopen hclose
    · rw [List.map_cons, ih, hopen]
      rfl
    · rw [List.map_cons, ih, hclose]
      rfl
    · simp [hopen, hclose, ih]

/-- **The braces of a script are those that masking leaves.** -/
theorem braceChars_eq (text : String) : braceChars text = maskedBraces text := by
  have hlines : ∀ (ls : List (List Char)) (line : Nat) (before : List Brace),
      (bracesFrom line before ls).map (fun x => (x.line, x.char)) = maskedBracesFrom line ls := by
    intro ls
    induction ls with
    | nil => exact fun _ _ => rfl
    | cons text later ih =>
      intro line before
      rw [bracesFrom, List.map_append, lineBraces, map_char_tag, ih, maskedBracesFrom]
  exact hlines (scriptLines text) 1 []

lemma line_of_mem_tag {line : Nat} {os : List Opening} {cs : List Char} {x : Brace}
    (hx : x ∈ tag line os cs) : x.line = line := by
  induction cs generalizing os with
  | nil => cases hx
  | cons c cs ih =>
    rw [tag] at hx
    split_ifs at hx
    · exact (List.mem_cons.1 hx).elim (fun h => h ▸ rfl) ih
    · exact (List.mem_cons.1 hx).elim (fun h => h ▸ rfl) ih
    · exact ih hx

lemma sum_net_tag (line : Nat) (os : List Opening) (cs : List Char) :
    ((tag line os cs).map Brace.net).sum = braceSum cs := by
  induction cs generalizing os with
  | nil => rfl
  | cons c cs ih =>
    rw [tag, braceSum]
    split_ifs with hopen hclose
    · simp [ih, Brace.net]
    · simp [ih, Brace.net]
    · rw [ih, Int.zero_add]

lemma tag_braceless_append {front : List Char} (h : Braceless front) (line : Nat)
    (os : List Opening) (cs : List Char) : tag line os (front ++ cs) = tag line os cs := by
  induction front with
  | nil => rfl
  | cons c front ih =>
    obtain ⟨hopen, hclose⟩ := h c List.mem_cons_self
    rw [List.cons_append, tag, if_neg hopen, if_neg hclose,
      ih fun d hd => h d (List.mem_cons_of_mem c hd)]

/-! ## The braces of headers -/

/-- The brace that ends a header of the given line. -/
def Opening.brace (line : Nat) (o : Opening) : Brace := .opening ⟨line, some o⟩

/-- A text that begins with the given headers, one right after another, and what is left of it. -/
inductive Heads : List Char → List Opening → List Char → Prop
  | nil (cs : List Char) : Heads cs [] cs
  | cons {cs rest : List Char} {o : Opening} {os : List Opening}
      (hread : Header.read? cs = some (o.header, o.rest)) (hos : Heads o.rest os rest) :
      Heads cs (o :: os) rest

/-- What is left of a line behind some openings of it. -/
def restOf (cs : List Char) (os : List Opening) : List Char := (os.getLast?.map (·.rest)).getD cs

lemma restOf_cons (cs : List Char) (o : Opening) (os : List Opening) :
    restOf cs (o :: os) = restOf o.rest os := by
  cases os with
  | nil => rfl
  | cons o' os =>
    rw [restOf, restOf, List.getLast?_cons_cons]
    cases h : (o' :: os).getLast? with
    | none => simp at h
    | some last => rfl

lemma heads_openingsFrom (column : Nat) (cs : List Char) :
    Heads cs (openingsFrom column cs) (restOf cs (openingsFrom column cs)) := by
  unfold openingsFrom
  split
  next => exact .nil cs
  next header rest hread =>
    have hlt : rest.length < cs.length := Header.length_lt_of_read? hread
    rw [restOf_cons]
    apply Heads.cons hread
    split
    · exact .nil rest
    · exact heads_openingsFrom _ rest
termination_by cs.length
decreasing_by exact hlt

lemma heads_headersOf (before : List Brace) (text : List Char) :
    Heads text (headersOf before text) (restOf text (headersOf before text)) := by
  unfold headersOf
  split
  · exact .nil text
  · exact heads_openingsFrom 0 text

section Plainly

variable {cs rest : List Char} {os : List Opening} {line : Nat} {before : List Brace}
  {text : List Char}

/-- The brace of a header is the first of the masked text. -/
lemma tag_cons_mask {o : Opening} (hread : Header.read? cs = some (o.header, o.rest))
    (hplain : o.header.HasPlainParams) (line : Nat) (os : List Opening) :
    tag line (o :: os) (mask .code cs) = o.brace line :: tag line os (mask .code o.rest) := by
  obtain ⟨front, rfl, hfront, hbraces⟩ := Header.exists_of_read? hread hplain
  have hbrace : mask .code ('{' :: o.rest) = '{' :: mask .code o.rest :=
    mask_plain_append (x := ['{']) (by decide) o.rest (fun h => by cases h)
  rw [mask_plain_append hfront _ (fun _ h => by cases h), tag_braceless_append hbraces, hbrace,
    tag, if_pos rfl]
  rfl

lemma Heads.tag_mask (h : Heads cs os rest) (hplain : ∀ o ∈ os, o.header.HasPlainParams) :
    tag line os (mask .code cs) = os.map (·.brace line) ++ tag line [] (mask .code rest) := by
  induction h with
  | nil => rfl
  | cons hread hos ih =>
    rw [List.forall_mem_cons] at hplain
    rw [tag_cons_mask hread hplain.1, ih hplain.2, List.map_cons, List.cons_append]

/-- Behind the brace of a header stand the braces of what the header leaves. -/
lemma Heads.exists_of_mem (h : Heads cs os rest) (hplain : ∀ o ∈ os, o.header.HasPlainParams)
    (line : Nat) {o : Opening} (ho : o ∈ os) :
    ∃ front back, tag line os (mask .code cs) = front ++ o.brace line :: back ∧
      (back.map Brace.net).sum = netBraces o.rest := by
  induction h with
  | nil => cases ho
  | @cons cs rest o' os hread hos ih =>
    rw [List.forall_mem_cons] at hplain
    rw [tag_cons_mask hread hplain.1]
    rcases List.mem_cons.1 ho with rfl | ho
    · exact ⟨[], _, rfl, sum_net_tag line os _⟩
    · obtain ⟨front, back, heq, hback⟩ := ih hplain.2 ho
      exact ⟨o'.brace line :: front, back, by rw [heq, List.cons_append], hback⟩

/-- What the headers leave is the end of the line, and what stands before it is plain. -/
lemma Heads.exists_front (h : Heads cs os rest) (hplain : ∀ o ∈ os, o.header.HasPlainParams) :
    ∃ front, cs = front ++ rest ∧ Plain front := by
  induction h with
  | nil cs => exact ⟨[], rfl, by decide⟩
  | cons hread hos ih =>
    rw [List.forall_mem_cons] at hplain
    obtain ⟨front, rfl, hfront, -⟩ := Header.exists_of_read? hread hplain.1
    obtain ⟨inner, hrest, hinner⟩ := ih hplain.2
    refine ⟨front ++ '{' :: inner, by rw [hrest]; simp, ?_⟩
    have hbrace : Plain ('{' :: inner) :=
      Plain.append (x := ['{']) (by decide) hinner fun h => by cases h
    exact hfront.append hbrace fun _ h => by cases h

lemma bodyText_eq_mask (h : Heads text os (restOf text os))
    (hplain : ∀ o ∈ os, o.header.HasPlainParams) :
    bodyText text os = mask .code (restOf text os) := by
  obtain ⟨front, htext, hfront⟩ := h.exists_front hplain
  have htake : ∀ rest, text = front ++ rest → text.take (text.length - rest.length) = front := by
    rintro rest rfl
    rw [List.length_append, Nat.add_sub_cancel, List.take_left]
  have hcode := situationAfter_of_plain hfront
  rw [← htake _ htext] at hcode
  rw [bodyText, ← restOf, hcode]

/-- **The braces of a line** are those of its headers and those of its body text. -/
theorem lineBraces_eq (hplain : ∀ o ∈ headersOf before text, o.header.HasPlainParams) :
    lineBraces line before text =
      (headersOf before text).map (·.brace line) ++
        tag line [] (bodyText text (headersOf before text)) := by
  have hheads := heads_headersOf before text
  rw [lineBraces, hheads.tag_mask hplain, bodyText_eq_mask hheads hplain]

end Plainly

/-! ## Where headers occur -/

/-- A header in a script. -/
structure Occurrence where
  line : Nat
  opening : Opening
  /-- The braces before the header. -/
  before : List Brace
  deriving DecidableEq, Repr, Inhabited

namespace Occurrence

def header (m : Occurrence) : Header := m.opening.header

def place (m : Occurrence) : Place := ⟨m.line, m.opening.column⟩

/-- The innermost agent around the header. -/
def agent? (m : Occurrence) : Option (String × Place) := enclosingAgent? m.before

end Occurrence

/-- The header that a brace ends, if the given braces precede it. -/
def Brace.occurrence? (before : List Brace) : Brace → Option Occurrence
  | .opening ⟨line, some o⟩ => some ⟨line, o, before⟩
  | _ => none

/-- The headers that some braces end, if the given braces precede them. -/
def occurrencesIn (before : List Brace) : List Brace → List Occurrence
  | [] => []
  | x :: xs => (x.occurrence? before).toList ++ occurrencesIn (before ++ [x]) xs

/-- The headers of the given lines, the first of which has the given number, behind the given
braces. -/
def occurrencesFrom (line : Nat) (before : List Brace) : List (List Char) → List Occurrence
  | [] => []
  | text :: later =>
    occurrencesIn before ((headersOf before text).map (·.brace line)) ++
      occurrencesFrom (line + 1) (before ++ lineBraces line before text) later

/-- The headers of a script. -/
def occurrences (text : String) : List Occurrence := occurrencesFrom 1 [] (scriptLines text)

/-- Whether no tool's header of a script has a quote, a grave accent, a brace or a comment sign
inside its parentheses. -/
def HasPlainTools (text : String) : Prop := ∀ m ∈ occurrences text, m.header.HasPlainParams

instance : DecidablePred HasPlainTools := fun text =>
  inferInstanceAs (Decidable (∀ m ∈ occurrences text, _))

lemma occurrencesIn_append (before xs ys : List Brace) :
    occurrencesIn before (xs ++ ys) =
      occurrencesIn before xs ++ occurrencesIn (before ++ xs) ys := by
  induction xs generalizing before with
  | nil => simp [occurrencesIn]
  | cons x xs ih => simp [occurrencesIn, ih]

lemma occurrencesIn_append_singleton (bs : List Brace) (x : Brace) :
    occurrencesIn [] (bs ++ [x]) = occurrencesIn [] bs ++ (x.occurrence? bs).toList := by
  simp [occurrencesIn_append, occurrencesIn]

/-- Behind the headers of a line, no brace ends one. -/
lemma occurrencesIn_tag_nil (line : Nat) (before : List Brace) (cs : List Char) :
    occurrencesIn before (tag line [] cs) = [] := by
  induction cs generalizing before with
  | nil => rfl
  | cons c cs ih =>
    rw [tag]
    split_ifs
    · exact ih _
    · exact ih _
    · exact ih _

lemma mem_occurrencesIn_map (before : List Brace) (line : Nat) {os : List Opening} {o : Opening}
    (ho : o ∈ os) :
    ∃ m ∈ occurrencesIn before (os.map (·.brace line)), m.opening = o ∧ m.line = line := by
  induction os generalizing before with
  | nil => cases ho
  | cons o' os ih =>
    rw [List.map_cons, occurrencesIn]
    rcases List.mem_cons.1 ho with rfl | ho
    · exact ⟨⟨line, o, before⟩, List.mem_append_left _ List.mem_cons_self, rfl, rfl⟩
    · obtain ⟨m, hm, hmo⟩ := ih (before ++ [o'.brace line]) ho
      exact ⟨m, List.mem_append_right _ hm, hmo⟩

section Plainly

variable {line : Nat} {before : List Brace} {text : List Char} {later : List (List Char)}

lemma hasPlainParams_headersOf
    (h : ∀ m ∈ occurrencesFrom line before (text :: later), m.header.HasPlainParams) :
    ∀ o ∈ headersOf before text, o.header.HasPlainParams := by
  intro o ho
  obtain ⟨m, hm, rfl, -⟩ := mem_occurrencesIn_map before line ho
  exact h m (List.mem_append_left _ hm)

/-- The headers of a script are those that its braces end. -/
theorem occurrencesFrom_eq {ls : List (List Char)}
    (h : ∀ m ∈ occurrencesFrom line before ls, m.header.HasPlainParams) :
    occurrencesFrom line before ls = occurrencesIn before (bracesFrom line before ls) := by
  induction ls generalizing line before with
  | nil => rfl
  | cons text later ih =>
    have hline : occurrencesIn before (lineBraces line before text) =
        occurrencesIn before ((headersOf before text).map (·.brace line)) := by
      rw [lineBraces_eq (hasPlainParams_headersOf h), occurrencesIn_append, occurrencesIn_tag_nil,
        List.append_nil]
    rw [occurrencesFrom, bracesFrom, occurrencesIn_append, hline,
      ih fun m hm => h m (List.mem_append_right _ hm)]

end Plainly

end AgentScript.Script
