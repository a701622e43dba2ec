import AgentScript.Proofs.Script.Clauses
import AgentScript.Proofs.Script.Growth
import AgentScript.Proofs.Script.Seams
import Mathlib.Data.List.Forall2

/-!
# Blanks around a line

Blanks at either end of a line say nothing.  A header is read over them, a clause is found between
them, they hold no braces even within a literal, and a field begins after them and ends before them.
So each thing that is asked of a line has the same answer for the trimmed line: what it opens
(`openings_trim`), its clauses, its braces, and what its body text does to the open scopes
(`Reading.body_trim`).
-/

namespace AgentScript

namespace Text

variable {blanks : List Char} (hblanks : ∀ b ∈ blanks, isBlank b = true)
include hblanks

/-- Blanks behind a text stay where they are unless they are all there is. -/
lemma dropBlanks_append_blanks (cs : List Char) :
    dropBlanks cs = [] ∧ dropBlanks (cs ++ blanks) = [] ∨
      dropBlanks (cs ++ blanks) = dropBlanks cs ++ blanks := by
  obtain ⟨front, hfront, heq⟩ := exists_dropBlanks cs
  cases hrest : dropBlanks cs with
  | nil =>
    rw [hrest, List.append_nil] at heq
    refine .inl ⟨rfl, dropBlanks_eq_nil fun b hb => ?_⟩
    rw [heq] at hb
    exact (List.mem_append.1 hb).elim (hfront b) (hblanks b)
  | cons c rest =>
    have hc : isBlank c = false := head?_dropBlanks (by rw [hrest, List.head?_cons])
    rw [heq, hrest, List.append_assoc, dropBlanks_append hfront, List.cons_append,
      dropBlanks_of_not_isBlank hc]
    exact .inr rfl

lemma trim_blanks_append (cs : List Char) : trim (blanks ++ cs) = trim cs := by
  rw [trim, dropBlanks_append hblanks, trim]

lemma trim_append_blanks (cs : List Char) : trim (cs ++ blanks) = trim cs := by
  have hreverse : ∀ b ∈ blanks.reverse, isBlank b = true :=
    fun b hb => hblanks b (List.mem_reverse.1 hb)
  have htrailing : ∀ ds : List Char, dropTrailingBlanks (ds ++ blanks) = dropTrailingBlanks ds := by
    intro ds
    rw [dropTrailingBlanks, List.reverse_append, dropBlanks_append hreverse, dropTrailingBlanks]
  rcases dropBlanks_append_blanks hblanks cs with ⟨hnil, hnil'⟩ | happend
  · rw [trim, trim, hnil, hnil']
  · rw [trim, happend, htrailing, trim]

omit hblanks in
/-- Nothing is left of a line exactly if it is blank. -/
lemma trim_eq_nil_iff {cs : List Char} : trim cs = [] ↔ ∀ c ∈ cs, isBlank c = true := by
  constructor
  · intro h
    obtain ⟨front, back, hfront, hback, heq⟩ := exists_trim cs
    rw [heq, h, List.nil_append]
    exact fun c hc => (List.mem_append.1 hc).elim (hfront c) (hback c)
  · intro h
    rw [trim, dropBlanks_eq_nil h]
    rfl

omit hblanks in
/-- What has the same value with blanks at either end has the same value for the trimmed text. -/
lemma apply_trim {α : Type} {f : List Char → α}
    (hfront : ∀ blanks, (∀ b ∈ blanks, isBlank b = true) → ∀ cs, f (blanks ++ cs) = f cs)
    (hback : ∀ blanks, (∀ b ∈ blanks, isBlank b = true) → ∀ cs, f (cs ++ blanks) = f cs)
    (cs : List Char) : f (trim cs) = f cs := by
  obtain ⟨front, back, hf, hb, heq⟩ := exists_trim cs
  calc f (trim cs) = f (trim cs ++ back) := (hback back hb (trim cs)).symm
    _ = f (front ++ (trim cs ++ back)) := (hfront front hf _).symm
    _ = f cs := by rw [← heq]

end Text

namespace Script

open Text

variable {blanks : List Char}

/-! ## Headers -/

lemma starts_trim (cs : List Char) : Header.starts (trim cs) = Header.starts cs := by
  refine apply_trim (fun blanks h cs => ?_) (fun blanks h cs => ?_) cs
  · rw [Header.starts, Header.read?_blanks_append h, Header.starts]
  · rw [Header.starts, Header.read?_append_blanks h, Option.isSome_map, Header.starts]

lemma startsAgent_trim (cs : List Char) : Header.startsAgent (trim cs) = Header.startsAgent cs := by
  refine apply_trim (fun blanks h cs => ?_) (fun blanks h cs => ?_) cs
  · rw [Header.startsAgent, Header.readAgent_blanks_append h, Header.startsAgent]
  · rw [Header.startsAgent, Header.readAgent_append_blanks h, Option.isSome_map,
      Header.startsAgent]

/-! ## Clauses -/

lemma isQuote_eq_false_of_isBlank {c : Char} (h : isBlank c = true) : isQuote c = false := by
  by_contra hquote
  rw [Bool.not_eq_false, isQuote, Bool.or_eq_true, beq_iff_eq, beq_iff_eq] at hquote
  rcases hquote with rfl | rfl <;> cases h

/-- Without a closing quote there is no value. -/
lemma quotedValue_eq_none {q : Char} {cs : List Char} (h : ∀ c ∈ cs, isQuote c = false) :
    quotedValue (q :: cs) = none := by
  cases cs with
  | nil => rfl
  | cons c cs =>
    have hdrop : cs.dropWhile (!isQuote ·) = [] := by
      rw [List.dropWhile_eq_nil_iff]
      intro d hd
      rw [h d (List.mem_cons_of_mem c hd)]
      rfl
    rw [quotedValue, hdrop]
    exact ite_self _

lemma quotedValue_append_blanks (hblanks : ∀ b ∈ blanks, isBlank b = true) (cs : List Char) :
    quotedValue (cs ++ blanks) = quotedValue cs := by
  have hquote : ∀ b ∈ blanks, isQuote b = false := by
    intro b hb
    exact isQuote_eq_false_of_isBlank (hblanks b hb)
  cases cs with
  | nil =>
    cases blanks with
    | nil => rfl
    | cons b rest => exact quotedValue_eq_none fun c hc => hquote c (List.mem_cons_of_mem b hc)
  | cons q tail =>
    cases tail with
    | nil => exact quotedValue_eq_none hquote
    | cons c cs =>
      rw [List.cons_append, List.cons_append]
      cases hds : cs.dropWhile (!isQuote ·) with
      | nil =>
        have hopen : ∀ c ∈ cs ++ blanks, (!isQuote c) = true := by
          intro c hc
          rcases List.mem_append.1 hc with hc | hc
          · exact List.dropWhile_eq_nil_iff.1 hds c hc
          · rw [hquote c hc]
            rfl
        rw [quotedValue, quotedValue, hds, List.dropWhile_eq_nil_iff.2 hopen]
      | cons d ds =>
        have hrun : ∀ c ∈ cs.takeWhile (!isQuote ·), (!isQuote c) = true := by
          intro c hc
          have hquote := List.mem_takeWhile_imp hc
          exact hquote
        have hstop : ∀ c, (d :: (ds ++ blanks)).head? = some c → (!isQuote c) = false := by
          rintro c ⟨⟩
          have hd := List.head?_dropWhile_not (!isQuote ·) cs
          rw [hds, List.head?_cons] at hd
          simpa using hd
        have hsplit : cs ++ blanks = cs.takeWhile (!isQuote ·) ++ d :: (ds ++ blanks) := by
          rw [← List.cons_append, ← hds, ← List.append_assoc, List.takeWhile_append_dropWhile]
        obtain ⟨htake, hdrop⟩ := takeWhile_append_stop hrun hstop
        rw [← hsplit] at htake hdrop
        rw [quotedValue, quotedValue, htake, hdrop, hds]

/-- A key of a clause: it begins with a character that is not blank and holds none. -/
lemma clauseHere_append_blanks {key : String} (hkey : isName key.toList = true)
    (hblanks : ∀ b ∈ blanks, isBlank b = true) (cs : List Char) :
    clauseHere key (cs ++ blanks) = clauseHere key cs := by
  have hstop : ∀ l ∈ key.toList ++ [':'], blanks.head? ≠ some l := by
    intro l hl hhead
    have hblank := hblanks l (List.mem_of_mem_head? hhead)
    rcases List.mem_append.1 hl with hl | hl
    · rw [isBlank_eq_false_of_isWord ((isName_iff.1 hkey).2 l hl)] at hblank
      cases hblank
    · rw [List.mem_singleton.1 hl] at hblank
      cases hblank
  rw [clauseHere, clauseHere, after?_append_stop hstop]
  cases after? (key.toList ++ [':']) cs with
  | none => rfl
  | some rest =>
    simp only [Option.map_some, Option.bind_eq_bind, Option.bind_some]
    rcases dropBlanks_append_blanks hblanks rest with ⟨hnil, hnil'⟩ | happend
    · rw [hnil, hnil']
    · rw [happend, quotedValue_append_blanks hblanks]

/-- No clause begins with a blank. -/
lemma clauseHere_of_isBlank {key : String} (hkey : isName key.toList = true) {b : Char}
    (hb : isBlank b = true) (cs : List Char) : clauseHere key (b :: cs) = none := by
  cases hletters : key.toList with
  | nil =>
    rw [hletters] at hkey
    cases hkey
  | cons l ls =>
    have hl : l ≠ b := by
      rintro rfl
      have hword := (isName_iff.1 hkey).2 l (by rw [hletters]; exact List.mem_cons_self)
      rw [isBlank_eq_false_of_isWord hword] at hb
      cases hb
    rw [clauseHere, hletters, List.cons_append, after?, if_neg hl]
    rfl

lemma clauseText_blanks_append {key : String} (hkey : isName key.toList = true)
    (hblanks : ∀ b ∈ blanks, isBlank b = true) (cs : List Char) :
    clauseText key (blanks ++ cs) = clauseText key cs := by
  induction blanks with
  | nil => rfl
  | cons b blanks ih =>
    rw [List.cons_append, clauseText, clauseHere_of_isBlank hkey (hblanks b List.mem_cons_self)]
    exact ih fun d hd => hblanks d (List.mem_cons_of_mem b hd)

lemma clauseText_append_blanks {key : String} (hkey : isName key.toList = true)
    (hblanks : ∀ b ∈ blanks, isBlank b = true) (cs : List Char) :
    clauseText key (cs ++ blanks) = clauseText key cs := by
  induction cs with
  | nil =>
    have hnone := clauseText_blanks_append hkey hblanks []
    rwa [List.append_nil] at hnone
  | cons c cs ih =>
    rw [List.cons_append, clauseText, clauseText, ih, ← List.cons_append,
      clauseHere_append_blanks hkey hblanks]

lemma clause?_trim {key : String} (hkey : isName key.toList = true) (line : List Char) :
    clause? key (trim line) = clause? key line := by
  refine apply_trim (fun blanks h cs => ?_) (fun blanks h cs => ?_) line
  · rw [clause?, clauseText_blanks_append hkey h, clause?]
  · rw [clause?, clauseText_append_blanks hkey h, clause?]

lemma clause?_description_trim (line : List Char) :
    clause? "description" (trim line) = clause? "description" line :=
  clause?_trim (by decide +kernel) line

lemma add_trim (known : AgentClauses) (line : List Char) : known.add (trim line) = known.add line := by
  rw [AgentClauses.add, AgentClauses.add, clause?_description_trim,
    clause?_trim (by decide +kernel), clause?_trim (by decide +kernel),
    clause?_trim (by decide +kernel)]

/-! ## Braces -/

lemma inert_of_isBlank (hblanks : ∀ b ∈ blanks, isBlank b = true) : Inert blanks :=
  inert_of_forall hblanks (by decide +kernel)

/-- Masked blanks are blanks, in whatever situation. -/
lemma isBlank_of_mem_mask (hblanks : ∀ b ∈ blanks, isBlank b = true) (s : Literal) :
    ∀ c ∈ mask s blanks, isBlank c = true := by
  intro c hc
  rcases mem_mask hc with rfl | hc
  · decide
  · exact hblanks c hc

/-- Blanks behind a line stand behind the masked line, if it does not end in a comment. -/
lemma mask_append_blanks (hblanks : ∀ b ∈ blanks, isBlank b = true) (s : Literal)
    (cs : List Char) :
    ∃ masked, (∀ b ∈ masked, isBlank b = true) ∧ mask s (cs ++ blanks) = mask s cs ++ masked := by
  by_cases hcomment : situationAfter s cs = .comment
  · refine ⟨[], fun _ h => absurd h List.not_mem_nil, ?_⟩
    rw [mask_append_of_comment s cs blanks hcomment, List.append_nil]
  · have hseam : cs.getLast? = some '/' → blanks.head? ≠ some '/' := by
      intro _ hhead
      have hblank := hblanks '/' (List.mem_of_mem_head? hhead)
      cases hblank
    exact ⟨mask (situationAfter s cs) blanks, isBlank_of_mem_mask hblanks _,
      mask_append s cs blanks hcomment hseam⟩

lemma mask_blanks_append (hblanks : ∀ b ∈ blanks, isBlank b = true) (cs : List Char) :
    mask .code (blanks ++ cs) = blanks ++ mask .code cs := by
  apply mask_plain_append (inert_of_isBlank hblanks).plain cs
  intro hlast
  have hblank := hblanks '/' (List.mem_of_getLast? hlast)
  cases hblank

lemma situationAfter_blanks_append (hblanks : ∀ b ∈ blanks, isBlank b = true) (cs : List Char) :
    situationAfter .code (blanks ++ cs) = situationAfter .code cs := by
  induction blanks with
  | nil => rfl
  | cons b blanks ih =>
    have hinert := inert_of_isBlank hblanks b List.mem_cons_self
    have hcode : ¬ startsComment (b :: (blanks ++ cs)) := by
      rintro ⟨rest, heq⟩
      exact hinert.2.1 (List.cons.inj heq).1
    rw [List.cons_append, situationAfter_code_cons hcode, hinert.1, if_neg Bool.false_ne_true,
      ih fun d hd => hblanks d (List.mem_cons_of_mem b hd)]

lemma netBraces_trim (line : List Char) : netBraces (trim line) = netBraces line := by
  refine apply_trim (fun blanks h cs => ?_) (fun blanks h cs => ?_) line
  · rw [netBraces, mask_blanks_append h, braceSum_append,
      braceSum_of_braceless (inert_of_isBlank h).braceless, Int.zero_add, netBraces]
  · obtain ⟨masked, hmasked, heq⟩ := mask_append_blanks h .code cs
    rw [netBraces, heq, braceSum_append,
      braceSum_of_braceless (inert_of_isBlank hmasked).braceless, Int.add_zero, netBraces]

lemma onlyCloses_trim (line : List Char) : onlyCloses (trim line) = onlyCloses line := by
  have hbrace : ∀ {bs : List Char}, (∀ b ∈ bs, isBlank b = true) →
      bs.contains '{' = false ∧ bs.contains '}' = false := by
    intro bs hbs
    have hbraces := (inert_of_isBlank hbs).braceless
    rw [List.contains_eq_mem, List.contains_eq_mem, decide_eq_false_iff_not,
      decide_eq_false_iff_not]
    exact ⟨fun hmem => (hbraces '{' hmem).1 rfl, fun hmem => (hbraces '}' hmem).2 rfl⟩
  refine apply_trim (fun blanks h cs => ?_) (fun blanks h cs => ?_) line
  · obtain ⟨hopen, hclose⟩ := hbrace h
    simp only [onlyCloses, mask_blanks_append h, List.contains_append, hopen, hclose,
      Bool.false_or]
  · obtain ⟨masked, hmasked, heq⟩ := mask_append_blanks h .code cs
    obtain ⟨hopen, hclose⟩ := hbrace hmasked
    simp only [onlyCloses, heq, List.contains_append, hopen, hclose, Bool.or_false]

/-! ## Fields -/

/-- The type behind a colon, as both kinds of field read it. -/
lemma annotation_append_blanks (hblanks : ∀ b ∈ blanks, isBlank b = true) (rest : List Char) :
    ((expect ':' (dropBlanks (rest ++ blanks))).bind fun after =>
        (readType (dropBlanks after)).map (·.1)) =
      (expect ':' (dropBlanks rest)).bind fun after => (readType (dropBlanks after)).map (·.1) := by
  have hcolon : blanks.head? ≠ some ':' := by
    intro hhead
    have hblank := hblanks ':' (List.mem_of_mem_head? hhead)
    cases hblank
  rcases dropBlanks_append_blanks hblanks rest with ⟨hnil, hnil'⟩ | happend
  · rw [hnil, hnil']
  · rw [happend, expect_append hcolon]
    cases expect ':' (dropBlanks rest) with
    | none => rfl
    | some after =>
      simp only [Option.map_some, Option.bind_some]
      rcases dropBlanks_append_blanks hblanks after with ⟨hnil, hnil'⟩ | happend
      · rw [hnil, hnil']
      · rw [happend, readType_append_stop (stops_blanks hblanks), Option.map_map]
        rfl

lemma readStateField_eq (piece : List Char) :
    readStateField piece = (readName (dropBlanks piece)).bind fun read =>
      ((expect ':' (dropBlanks ((expect '?' read.2).getD read.2))).bind fun after =>
        (readType (dropBlanks after)).map (·.1)).map fun type =>
          ⟨String.ofList read.1, String.ofList type, (expect '?' read.2).isSome⟩ := by
  rw [readStateField]
  cases readName (dropBlanks piece) with
  | none => rfl
  | some read =>
    simp only [Option.bind_eq_bind, Option.bind_some]
    cases expect ':' (dropBlanks ((expect '?' read.2).getD read.2)) with
    | none => rfl
    | some after =>
      simp only [Option.bind_some]
      cases readType (dropBlanks after) <;> rfl

lemma readTypeField_eq (piece : List Char) :
    readTypeField piece = (readName (dropBlanks piece)).bind fun read =>
      ((expect ':' (dropBlanks read.2)).bind fun after =>
        (readType (dropBlanks after)).map (·.1)).map fun type =>
          ⟨String.ofList read.1, String.ofList type⟩ := by
  rw [readTypeField]
  cases readName (dropBlanks piece) with
  | none => rfl
  | some read =>
    simp only [Option.bind_eq_bind, Option.bind_some]
    cases expect ':' (dropBlanks read.2) with
    | none => rfl
    | some after =>
      simp only [Option.bind_some]
      cases readType (dropBlanks after) <;> rfl

lemma readStateField_append_blanks (hblanks : ∀ b ∈ blanks, isBlank b = true)
    (piece : List Char) : readStateField (piece ++ blanks) = readStateField piece := by
  have hmark : blanks.head? ≠ some '?' := by
    intro hhead
    have hblank := hblanks '?' (List.mem_of_mem_head? hhead)
    cases hblank
  rw [readStateField_eq, readStateField_eq]
  rcases dropBlanks_append_blanks hblanks piece with ⟨hnil, hnil'⟩ | happend
  · rw [hnil, hnil']
  · rw [happend, readName_append_stop (stops_blanks hblanks)]
    cases readName (dropBlanks piece) with
    | none => rfl
    | some read =>
      simp only [Option.map_some, Option.bind_some, expect_append hmark]
      cases expect '?' read.2 with
      | none => simp only [Option.map_none, Option.getD_none, annotation_append_blanks hblanks]
      | some rest =>
        simp only [Option.map_some, Option.getD_some, annotation_append_blanks hblanks]
        rfl

lemma readTypeField_append_blanks (hblanks : ∀ b ∈ blanks, isBlank b = true) (piece : List Char) :
    readTypeField (piece ++ blanks) = readTypeField piece := by
  rw [readTypeField_eq, readTypeField_eq]
  rcases dropBlanks_append_blanks hblanks piece with ⟨hnil, hnil'⟩ | happend
  · rw [hnil, hnil']
  · rw [happend, readName_append_stop (stops_blanks hblanks)]
    cases readName (dropBlanks piece) with
    | none => rfl
    | some read =>
      simp only [Option.map_some, Option.bind_some, annotation_append_blanks hblanks]

/-- Blanks behind a field list stand behind its last piece. -/
lemma piecesFrom_append_blanks (hblanks : ∀ b ∈ blanks, isBlank b = true) (depth : Int)
    (segment : List Char) :
    ∃ before last, piecesFrom depth segment = before ++ [last] ∧
      piecesFrom depth (segment ++ blanks) = before ++ [last ++ blanks] := by
  induction segment generalizing depth with
  | nil =>
    refine ⟨[], [], rfl, ?_⟩
    exact piecesFrom_eq_singleton ((flat_of_isBlank hblanks).unseparated depth)
  | cons c cs ih =>
    rw [List.cons_append, piecesFrom, piecesFrom]
    by_cases hseparates : separates depth c = true
    · obtain ⟨before, last, heq, heq'⟩ := ih depth
      refine ⟨[] :: before, last, ?_, ?_⟩
      · rw [if_pos hseparates, heq, List.cons_append]
      · rw [if_pos hseparates, heq', List.cons_append]
    · obtain ⟨before, last, heq, heq'⟩ := ih (depthAfter depth c)
      rw [if_neg hseparates, if_neg hseparates, heq, heq']
      cases before with
      | nil => exact ⟨[], c :: last, rfl, rfl⟩
      | cons piece before => exact ⟨(c :: piece) :: before, last, rfl, rfl⟩

/-- Blanks in front of a field list stand in front of its first piece. -/
lemma pieces_blanks_append (hblanks : ∀ b ∈ blanks, isBlank b = true) (segment : List Char) :
    ∃ first others, pieces segment = first :: others ∧
      pieces (blanks ++ segment) = (blanks ++ first) :: others := by
  induction blanks with
  | nil =>
    obtain ⟨before, last, heq, -⟩ := piecesFrom_append_blanks hblanks 0 segment
    rw [List.nil_append, pieces, heq]
    cases before with
    | nil => exact ⟨last, [], rfl, rfl⟩
    | cons piece before => exact ⟨piece, before ++ [last], rfl, rfl⟩
  | cons b blanks ih =>
    obtain ⟨first, others, heq, heq'⟩ := ih fun d hd => hblanks d (List.mem_cons_of_mem b hd)
    have hflat : Flat [b] := flat_of_isBlank fun d hd =>
      hblanks d (List.mem_cons.2 (.inl (List.mem_singleton.1 hd)))
    have hseparates : separates 0 b = false := (hflat.unseparated 0).1
    have hdepth : depthAfter 0 b = 0 := hflat.foldl_depthAfter 0
    refine ⟨first, others, heq, ?_⟩
    rw [pieces] at heq'
    rw [List.cons_append, pieces, piecesFrom, hseparates, if_neg Bool.false_ne_true, hdepth, heq',
      List.cons_append]

/-- Whatever is read from the pieces of a field list, blanks around the list do not count. -/
lemma filterMap_pieces_trim {α : Type} {read : List Char → Option α}
    (hfront : ∀ piece, read (dropBlanks piece) = read piece)
    (hback : ∀ blanks, (∀ b ∈ blanks, isBlank b = true) → ∀ piece, read (piece ++ blanks) = read piece)
    (segment : List Char) :
    (pieces (trim segment)).filterMap read = (pieces segment).filterMap read := by
  refine apply_trim (f := fun cs => (pieces cs).filterMap read) (fun blanks h cs => ?_)
    (fun blanks h cs => ?_) segment
  · obtain ⟨first, others, heq, heq'⟩ := pieces_blanks_append h cs
    have hfirst : read (blanks ++ first) = read first := by
      rw [← hfront, dropBlanks_append h, hfront]
    rw [heq, heq', List.filterMap_cons, List.filterMap_cons, hfirst]
  · obtain ⟨before, last, heq, heq'⟩ := piecesFrom_append_blanks h 0 cs
    rw [pieces, pieces, heq, heq', List.filterMap_append, List.filterMap_append,
      List.filterMap_cons, List.filterMap_cons, hback blanks h last]

lemma stateFields_trim (segment : List Char) : stateFields (trim segment) = stateFields segment := by
  refine filterMap_pieces_trim (fun piece => ?_) (fun blanks h => readStateField_append_blanks h)
    segment
  rw [readStateField, dropBlanks_dropBlanks, readStateField]

lemma typeFields_trim (segment : List Char) : typeFields (trim segment) = typeFields segment := by
  refine filterMap_pieces_trim (fun piece => ?_) (fun blanks h => readTypeField_append_blanks h)
    segment
  rw [readTypeField, dropBlanks_dropBlanks, readTypeField]

/-! ## Body text -/

namespace Reading

variable {n : Nat}

/-- A stretch of body text collects what it collects without the blanks around it. -/
lemma collect_eq_of_trim_eq {x y : List Char} (h : trim x = trim y) (r : Reading) :
    r.collect x = r.collect y := by
  have hstate : stateFields x = stateFields y := by
    rw [← stateFields_trim x, h, stateFields_trim]
  have htype : typeFields x = typeFields y := by
    rw [← typeFields_trim x, h, typeFields_trim]
  rw [collect, collect]
  cases r.scopes with
  | nil => rfl
  | cons scope outer =>
    have hscope : scope.collect x = scope.collect y := by
      cases scope <;> simp only [Scope.collect, hstate, htype]
    simp only [hscope]

lemma body_eq_of_trim_eq {x y : List Char} (h : ∀ cs, trim (x ++ cs) = trim (y ++ cs))
    (cs : List Char) (r : Reading) : body n x cs r = body n y cs r := by
  induction cs generalizing x y with
  | nil =>
    rw [body, body]
    have hend := h []
    rw [List.append_nil, List.append_nil] at hend
    exact collect_eq_of_trim_eq hend r
  | cons c cs ih =>
    have hend := h []
    rw [List.append_nil, List.append_nil] at hend
    rw [body, body, collect_eq_of_trim_eq hend]
    have hlonger : ∀ ds, trim (x ++ [c] ++ ds) = trim (y ++ [c] ++ ds) := by
      intro ds
      rw [List.append_assoc, List.append_assoc]
      exact h ([c] ++ ds)
    rw [ih hlonger]

/-- Blanks around the body text of a line do not count. -/
theorem body_trim (cs : List Char) (r : Reading) : body n [] (trim cs) r = body n [] cs r := by
  refine apply_trim (f := fun cs => body n [] cs r) (fun blanks h cs => ?_) (fun blanks h cs => ?_)
    cs
  · rw [body_braceless_append (inert_of_isBlank h).braceless, List.nil_append]
    exact body_eq_of_trim_eq (fun ds => trim_blanks_append h ds) cs r
  · generalize ([] : List Char) = segment
    induction cs generalizing segment r with
    | nil =>
      rw [List.nil_append, body_of_braceless (inert_of_isBlank h).braceless, body]
      exact collect_eq_of_trim_eq (trim_append_blanks h segment) r
    | cons c cs ih =>
      rw [List.cons_append, body, body]
      split
      · exact ih _ _
      · split
        · exact ih _ _
        · exact ih _ _

end Reading

/-! ## Openings -/

/-- What an opening says, wherever it stands. -/
def Opening.said (o : Opening) : Header × List Char := (o.header, o.rest)

lemma openingsFrom_eq (before : Nat) (cs : List Char) :
    (openingsFrom before cs).map Opening.said =
      match Header.read? cs with
      | none => []
      | some (header, rest) =>
        (header, rest) ::
          if header.opensFields then []
          else (openingsFrom (before + (cs.length - rest.length)) rest).map Opening.said := by
  rw [openingsFrom]
  split
  next heq => rw [heq]; rfl
  next header rest heq =>
    rw [heq, List.map_cons]
    dsimp only
    split <;> rfl

/-- Blanks behind a line stand behind what each opening leaves. -/
lemma openingsFrom_append_blanks (hblanks : ∀ b ∈ blanks, isBlank b = true) (cs : List Char)
    (before before' : Nat) :
    (openingsFrom before (cs ++ blanks)).map Opening.said =
      ((openingsFrom before' cs).map Opening.said).map fun said => (said.1, said.2 ++ blanks) := by
  rw [openingsFrom_eq, openingsFrom_eq, Header.read?_append_blanks hblanks]
  cases hread : Header.read? cs with
  | none => rfl
  | some read =>
    obtain ⟨header, rest⟩ := read
    have hlt : rest.length < cs.length := Header.length_lt_of_read? hread
    rw [Option.map_some, List.map_cons]
    dsimp only
    split
    · rfl
    · rw [openingsFrom_append_blanks hblanks rest]
termination_by cs.length
decreasing_by exact hlt

lemma openingsFrom_said (cs : List Char) (before before' : Nat) :
    (openingsFrom before cs).map Opening.said = (openingsFrom before' cs).map Opening.said := by
  have hnil : ∀ b ∈ ([] : List Char), isBlank b = true := fun _ h => absurd h List.not_mem_nil
  have happend := openingsFrom_append_blanks hnil cs before before'
  rw [List.append_nil] at happend
  rw [happend]
  refine (List.map_congr_left fun said _ => ?_).trans (List.map_id _)
  rw [List.append_nil]
  rfl

lemma openings_blanks_append (hblanks : ∀ b ∈ blanks, isBlank b = true) (cs : List Char) :
    (openings (blanks ++ cs)).map Opening.said = (openings cs).map Opening.said := by
  rw [openings, openings, openingsFrom_eq, openingsFrom_eq, Header.read?_blanks_append hblanks]
  cases hread : Header.read? cs with
  | none => rfl
  | some read =>
    dsimp only
    rw [openingsFrom_said read.2 (0 + ((blanks ++ cs).length - read.2.length))
      (0 + (cs.length - read.2.length))]

lemma openings_append_blanks (hblanks : ∀ b ∈ blanks, isBlank b = true) (cs : List Char) :
    (openings (cs ++ blanks)).map Opening.said =
      ((openings cs).map Opening.said).map fun said => (said.1, said.2 ++ blanks) :=
  openingsFrom_append_blanks hblanks cs 0 0

/-- A line opens what the trimmed line opens. -/
theorem openings_trim (line : List Char) :
    (openings (trim line)).map (fun o => (o.header, trim o.rest)) =
      (openings line).map fun o => (o.header, trim o.rest) := by
  have hsaid : ∀ os : List Opening, os.map (fun o => (o.header, trim o.rest)) =
      (os.map Opening.said).map fun said => (said.1, trim said.2) := by
    intro os
    rw [List.map_map]
    rfl
  rw [hsaid, hsaid]
  refine apply_trim (f := fun cs => ((openings cs).map Opening.said).map
    fun said => (said.1, trim said.2)) (fun blanks h cs => ?_) (fun blanks h cs => ?_) line
  · rw [openings_blanks_append h]
  · rw [openings_append_blanks h, List.map_map]
    apply List.map_congr_left
    intro said _
    rw [Function.comp_apply, trim_append_blanks h]

lemma forall₂_iff_map_eq {α β γ : Type} {f : α → γ} {g : β → γ} {l : List α} {l' : List β} :
    List.Forall₂ (fun a b => f a = g b) l l' ↔ l.map f = l'.map g := by
  rw [← List.forall₂_eq_eq_eq, List.forall₂_map_left_iff, List.forall₂_map_right_iff]

/-- Lines that are the same when they are trimmed open the same, one by one. -/
lemma forall₂_openings {t t' : List Char} (h : trim t = trim t') :
    List.Forall₂ (fun o o' => (o.header, trim o.rest) = (o'.header, trim o'.rest))
      (openings t) (openings t') := by
  rw [forall₂_iff_map_eq, ← openings_trim t, h, openings_trim]

lemma bodyText_of_getLast?_eq_none {cs : List Char}
    (h : ((openings cs).map Opening.said).getLast? = none) :
    bodyText cs (openings cs) = mask .code cs := by
  rw [List.getLast?_eq_none_iff, List.map_eq_nil_iff] at h
  rw [h, bodyText_nil]

/-- The body text of a line is what its last header leaves, masked as a part of the line. -/
lemma exists_bodyText_eq {cs : List Char} {said : Header × List Char}
    (h : ((openings cs).map Opening.said).getLast? = some said) :
    ∃ before, cs = before ++ said.2 ∧
      bodyText cs (openings cs) = mask (situationAfter .code before) said.2 := by
  rw [List.getLast?_map, Option.map_eq_some_iff] at h
  obtain ⟨o, hlast, rfl⟩ := h
  obtain ⟨before, hcs⟩ := suffix_of_mem_openingsFrom 0 cs o (List.mem_of_getLast? hlast)
  have htake : cs.take (cs.length - o.rest.length) = before := by
    rw [← hcs, List.length_append, Nat.add_sub_cancel, List.take_left]
  refine ⟨before, hcs.symm, ?_⟩
  rw [bodyText, hlast, Option.map_some, Option.getD_some, htake]
  rfl

lemma trim_bodyText_blanks_append (hblanks : ∀ b ∈ blanks, isBlank b = true) (cs : List Char) :
    trim (bodyText (blanks ++ cs) (openings (blanks ++ cs))) =
      trim (bodyText cs (openings cs)) := by
  have hsaid := openings_blanks_append hblanks cs
  cases hlast : ((openings cs).map Opening.said).getLast? with
  | none =>
    have hnone : ((openings (blanks ++ cs)).map Opening.said).getLast? = none := by
      rw [hsaid, hlast]
    rw [bodyText_of_getLast?_eq_none hnone, bodyText_of_getLast?_eq_none hlast,
      mask_blanks_append hblanks, trim_blanks_append hblanks]
  | some said =>
    obtain ⟨before, hcs, hbody⟩ := exists_bodyText_eq hlast
    obtain ⟨before', hcs', hbody'⟩ := exists_bodyText_eq (hsaid.symm ▸ hlast)
    have hbefore : before' = blanks ++ before := by
      rw [hcs, ← List.append_assoc] at hcs'
      exact (List.append_cancel_right hcs').symm
    rw [hbody, hbody', hbefore, situationAfter_blanks_append hblanks]

lemma trim_bodyText_append_blanks (hblanks : ∀ b ∈ blanks, isBlank b = true) (cs : List Char) :
    trim (bodyText (cs ++ blanks) (openings (cs ++ blanks))) =
      trim (bodyText cs (openings cs)) := by
  have hsaid := openings_append_blanks hblanks cs
  cases hlast : ((openings cs).map Opening.said).getLast? with
  | none =>
    have hnone : ((openings (cs ++ blanks)).map Opening.said).getLast? = none := by
      rw [hsaid, List.getLast?_map, hlast]
      rfl
    obtain ⟨masked, hmasked, heq⟩ := mask_append_blanks hblanks .code cs
    rw [bodyText_of_getLast?_eq_none hnone, bodyText_of_getLast?_eq_none hlast, heq,
      trim_append_blanks hmasked]
  | some said =>
    have hsome : ((openings (cs ++ blanks)).map Opening.said).getLast? =
        some (said.1, said.2 ++ blanks) := by
      rw [hsaid, List.getLast?_map, hlast]
      rfl
    obtain ⟨before, hcs, hbody⟩ := exists_bodyText_eq hlast
    obtain ⟨before', hcs', hbody'⟩ := exists_bodyText_eq hsome
    have hbefore : before' = before := by
      rw [hcs, List.append_assoc] at hcs'
      exact (List.append_cancel_right hcs').symm
    obtain ⟨masked, hmasked, heq⟩ := mask_append_blanks hblanks (situationAfter .code before) said.2
    rw [hbody, hbody', hbefore, heq, trim_append_blanks hmasked]

/-- Blanks around a line become blanks around its body text. -/
theorem trim_bodyText_trim (line : List Char) :
    trim (bodyText (trim line) (openings (trim line))) = trim (bodyText line (openings line)) :=
  apply_trim (f := fun cs => trim (bodyText cs (openings cs)))
    (fun _ h cs => trim_bodyText_blanks_append h cs)
    (fun _ h cs => trim_bodyText_append_blanks h cs) line

/-- Without openings, too. -/
lemma trim_mask_trim (line : List Char) : trim (mask .code (trim line)) = trim (mask .code line) := by
  refine apply_trim (f := fun cs => trim (mask .code cs)) (fun blanks h cs => ?_)
    (fun blanks h cs => ?_) line
  · rw [mask_blanks_append h, trim_blanks_append h]
  · obtain ⟨masked, hmasked, heq⟩ := mask_append_blanks h .code cs
    rw [heq, trim_append_blanks hmasked]

end Script

end AgentScript
