import AgentScript.Proofs.Script.Masking
import AgentScript.Proofs.Text.Splitting
import AgentScript.Script.Field
import Mathlib.Data.List.TakeWhile

/-!
# Fields come back from the text they are written as

A field is written as its name, a question mark if it is optional, a colon, a space and its type.
It comes back from a line of its own if its name is a name, its type is a type, and every comma of
the type stands inside brackets (`stateFields_render`); and every field that was ever read is of
this form (`writable_of_mem_stateFields`), whatever the brackets did in the text it came from.

The second statement rests on one fact about the cutting of field lists: a piece begins at a depth
of at most zero.  A comma that did not separate there stands inside brackets of the piece itself.
-/

namespace AgentScript.Script

open AgentScript.Text

/-! ## The grammar of types -/

/-- What a type may go on with after its first character. -/
inductive TypeTail : List Char → Prop
  | nil : TypeTail []
  | char {c : Char} {tail : List Char} (hc : isTypeChar c = true) (htail : TypeTail tail) :
      TypeTail (c :: tail)
  | comma {blanks tail : List Char} {c : Char} (hblanks : ∀ b ∈ blanks, isBlank b = true)
      (hc : isTypeChar c = true) (htail : TypeTail tail) : TypeTail (',' :: (blanks ++ c :: tail))

/-- Text that a type does not go on with. -/
def EndsType (rest : List Char) : Prop :=
  ∀ c, rest.head? = some c → isTypeChar c = false ∧ c ≠ ','

lemma endsType_nil : EndsType [] := fun _ h => by cases h

lemma isTypeChar_iff {c : Char} :
    isTypeChar c = true ↔ isWord c = true ∨ c = '[' ∨ c = ']' ∨ c = '<' ∨ c = '>' ∨ c = '.' := by
  simp only [isTypeChar, Bool.or_eq_true, beq_iff_eq, or_assoc]

lemma isBlank_eq_false_of_isTypeChar {c : Char} (h : isTypeChar c = true) : isBlank c = false := by
  rcases isTypeChar_iff.1 h with h | rfl | rfl | rfl | rfl | rfl
  · exact isBlank_eq_false_of_isWord h
  all_goals rfl

lemma readAfterComma_append {blanks tail rest : List Char} {c : Char}
    (hblanks : ∀ b ∈ blanks, isBlank b = true) (hc : isTypeChar c = true)
    (htail : readTypeTail (tail ++ rest) = (tail, rest)) :
    readAfterComma (blanks ++ c :: (tail ++ rest)) = some (blanks ++ c :: tail, rest) := by
  induction blanks with
  | nil => rw [List.nil_append, readAfterComma, if_pos hc, htail, List.nil_append]
  | cons b blanks ih =>
    have hb : isBlank b = true := hblanks b List.mem_cons_self
    have hchar : ¬ isTypeChar b = true := fun h => by
      rw [isBlank_eq_false_of_isTypeChar h] at hb
      cases hb
    rw [List.cons_append, readAfterComma, if_neg hchar, if_pos hb,
      ih fun d hd => hblanks d (List.mem_cons_of_mem _ hd), List.cons_append]

/-- A tail is read whole where the text goes on with something else. -/
lemma readTypeTail_append {tail rest : List Char} (h : TypeTail tail) (hrest : EndsType rest) :
    readTypeTail (tail ++ rest) = (tail, rest) := by
  induction h with
  | nil =>
    cases rest with
    | nil => rfl
    | cons c cs =>
      have hc := hrest c rfl
      simp [readTypeTail, hc.1, hc.2]
  | char hc _ ih => rw [List.cons_append, readTypeTail, if_pos hc, ih]
  | comma hblanks hc _ ih =>
    rw [List.cons_append, List.append_assoc, List.cons_append, readTypeTail,
      if_neg (by decide), if_pos rfl, readAfterComma_append hblanks hc ih]

mutual

/-- What is read as a tail is one, and what is left follows it. -/
lemma readTypeTail_sound (cs : List Char) :
    TypeTail (readTypeTail cs).1 ∧ (readTypeTail cs).1 ++ (readTypeTail cs).2 = cs := by
  cases cs with
  | nil => exact ⟨.nil, rfl⟩
  | cons c cs =>
    rw [readTypeTail]
    by_cases hchar : isTypeChar c = true
    · rw [if_pos hchar]
      obtain ⟨htail, happend⟩ := readTypeTail_sound cs
      exact ⟨.char hchar htail, by rw [List.cons_append, happend]⟩
    · rw [if_neg hchar]
      by_cases hcomma : c = ','
      · rw [if_pos hcomma]
        cases hafter : readAfterComma cs with
        | none => exact ⟨.nil, rfl⟩
        | some read =>
          obtain ⟨⟨blanks, d, tail, hread, hblanks, hd, htail⟩, happend⟩ :=
            readAfterComma_sound cs hafter
          dsimp only
          refine ⟨?_, by rw [List.cons_append, happend]⟩
          rw [hread, hcomma]
          exact .comma hblanks hd htail
      · rw [if_neg hcomma]
        exact ⟨.nil, rfl⟩

lemma readAfterComma_sound (cs : List Char) {read : List Char × List Char}
    (h : readAfterComma cs = some read) :
    (∃ blanks d tail, read.1 = blanks ++ d :: tail ∧ (∀ b ∈ blanks, isBlank b = true) ∧
      isTypeChar d = true ∧ TypeTail tail) ∧ read.1 ++ read.2 = cs := by
  cases cs with
  | nil => cases h
  | cons c cs =>
    rw [readAfterComma] at h
    by_cases hchar : isTypeChar c = true
    · rw [if_pos hchar] at h
      obtain rfl := Option.some.inj h
      obtain ⟨htail, happend⟩ := readTypeTail_sound cs
      refine ⟨⟨[], c, _, rfl, ?_, hchar, htail⟩, by rw [List.cons_append, happend]⟩
      exact fun b hb => absurd hb List.not_mem_nil
    · rw [if_neg hchar] at h
      by_cases hblank : isBlank c = true
      · rw [if_pos hblank] at h
        cases hafter : readAfterComma cs with
        | none =>
          rw [hafter] at h
          cases h
        | some inner =>
          rw [hafter] at h
          obtain rfl := Option.some.inj h
          obtain ⟨⟨blanks, d, tail, hread, hblanks, hd, htail⟩, happend⟩ :=
            readAfterComma_sound cs hafter
          refine ⟨⟨c :: blanks, d, tail, ?_, List.forall_mem_cons.2 ⟨hblank, hblanks⟩, hd, htail⟩,
            by rw [List.cons_append, happend]⟩
          rw [hread, List.cons_append]
      · rw [if_neg hblank] at h
        cases h

end

/-- A text is a type exactly if it is a type character and a tail. -/
lemma isType_iff {cs : List Char} :
    isType cs = true ↔ ∃ c tail, cs = c :: tail ∧ isTypeChar c = true ∧ TypeTail tail := by
  constructor
  · intro h
    cases cs with
    | nil => cases h
    | cons c cs =>
      rw [isType, readType] at h
      by_cases hchar : isTypeChar c = true
      · rw [if_pos hchar] at h
        obtain ⟨htail, happend⟩ := readTypeTail_sound cs
        dsimp only at h
        split at h
        next heq =>
          obtain ⟨-, hrest⟩ := Prod.mk.inj (Option.some.inj heq)
          rw [hrest, List.append_nil] at happend
          rw [happend] at htail
          exact ⟨c, cs, rfl, hchar, htail⟩
        next => cases h
      · rw [if_neg hchar] at h
        cases h
  · rintro ⟨c, tail, rfl, hchar, htail⟩
    have hread := readTypeTail_append htail endsType_nil
    rw [List.append_nil] at hread
    rw [isType, readType, if_pos hchar, hread]

lemma readType_append {type rest : List Char} (h : isType type = true) (hrest : EndsType rest) :
    readType (type ++ rest) = some (type, rest) := by
  obtain ⟨c, tail, rfl, hchar, htail⟩ := isType_iff.1 h
  rw [List.cons_append, readType, if_pos hchar, readTypeTail_append htail hrest]

/-- What is read as a type is one, and what is left follows it. -/
lemma readType_sound {cs type rest : List Char} (h : readType cs = some (type, rest)) :
    isType type = true ∧ type ++ rest = cs := by
  cases cs with
  | nil => cases h
  | cons c cs =>
    rw [readType] at h
    by_cases hchar : isTypeChar c = true
    · rw [if_pos hchar] at h
      obtain ⟨rfl, rfl⟩ := Prod.mk.inj (Option.some.inj h)
      obtain ⟨htail, happend⟩ := readTypeTail_sound cs
      exact ⟨isType_iff.2 ⟨c, _, rfl, hchar, htail⟩, by rw [List.cons_append, happend]⟩
    · rw [if_neg hchar] at h
      cases h

lemma TypeTail.mem {tail : List Char} (h : TypeTail tail) :
    ∀ c ∈ tail, isTypeChar c = true ∨ c = ',' ∨ isBlank c = true := by
  induction h with
  | nil => exact fun _ hc => absurd hc List.not_mem_nil
  | char hc _ ih => exact List.forall_mem_cons.2 ⟨.inl hc, ih⟩
  | comma hblanks hc _ ih =>
    refine List.forall_mem_cons.2 ⟨.inr (.inl rfl), fun d hd => ?_⟩
    rcases List.mem_append.1 hd with hd | hd
    · exact .inr (.inr (hblanks d hd))
    · exact List.forall_mem_cons.2 ⟨.inl hc, ih⟩ d hd

/-- A type consists of type characters, commas and blanks. -/
lemma mem_of_isType {type : List Char} (h : isType type = true) :
    ∀ c ∈ type, isTypeChar c = true ∨ c = ',' ∨ isBlank c = true := by
  obtain ⟨c, tail, rfl, hchar, htail⟩ := isType_iff.1 h
  exact List.forall_mem_cons.2 ⟨.inl hchar, htail.mem⟩

/-! ## Pieces -/

/-- No character of the text separates, at the depths that arise from the given one. -/
def Unseparated (depth : Int) : List Char → Prop
  | [] => True
  | c :: cs => separates depth c = false ∧ Unseparated (depthAfter depth c) cs

instance decidableUnseparated : ∀ depth cs, Decidable (Unseparated depth cs)
  | _, [] => isTrue trivial
  | depth, c :: cs =>
    have := decidableUnseparated (depthAfter depth c) cs
    inferInstanceAs (Decidable (_ ∧ _))

lemma piecesFrom_eq_singleton {depth : Int} {cs : List Char} (h : Unseparated depth cs) :
    piecesFrom depth cs = [cs] := by
  induction cs generalizing depth with
  | nil => rfl
  | cons c cs ih => rw [piecesFrom, h.1, if_neg Bool.false_ne_true, ih h.2]

/-- A piece begins at a depth of at most zero; the first one at the depth of the whole. -/
lemma unseparated_of_mem_piecesFrom {depth : Int} (hdepth : depth ≤ 0) (cs : List Char) :
    ∀ piece ∈ piecesFrom depth cs, ∃ start ≤ 0, Unseparated start piece := by
  have hshape : ∀ (depth : Int) (cs : List Char), ∃ piece others,
      piecesFrom depth cs = piece :: others ∧ Unseparated depth piece ∧
        ∀ other ∈ others, ∃ start ≤ 0, Unseparated start other := by
    intro depth cs
    induction cs generalizing depth with
    | nil => exact ⟨[], [], rfl, trivial, fun _ h => absurd h List.not_mem_nil⟩
    | cons c cs ih =>
      rw [piecesFrom]
      by_cases hc : separates depth c = true
      · have hle : depth ≤ 0 := by
          rw [separates, Bool.and_eq_true, decide_eq_true_eq] at hc
          exact hc.2
        obtain ⟨piece, others, heq, hpiece, hothers⟩ := ih depth
        rw [if_pos hc, heq]
        exact ⟨[], _, rfl, trivial, List.forall_mem_cons.2 ⟨⟨depth, hle, hpiece⟩, hothers⟩⟩
      · obtain ⟨piece, others, heq, hpiece, hothers⟩ := ih (depthAfter depth c)
        rw [if_neg hc, heq]
        rw [Bool.not_eq_true] at hc
        exact ⟨c :: piece, others, rfl, ⟨hc, hpiece⟩, hothers⟩
  obtain ⟨piece, others, heq, hpiece, hothers⟩ := hshape depth cs
  rw [heq]
  exact List.forall_mem_cons.2 ⟨⟨depth, hdepth, hpiece⟩, hothers⟩

lemma unseparated_append {depth : Int} {x y : List Char} :
    Unseparated depth (x ++ y) ↔
      Unseparated depth x ∧ Unseparated (x.foldl depthAfter depth) y := by
  induction x generalizing depth with
  | nil => simp [Unseparated]
  | cons c cs ih => simp [Unseparated, ih, and_assoc]

lemma depthAfter_le {low high : Int} (h : low ≤ high) (c : Char) :
    depthAfter low c ≤ depthAfter high c := by
  unfold depthAfter
  split
  · omega
  · split
    · omega
    · exact h

lemma Unseparated.mono {low high : Int} (h : low ≤ high) {cs : List Char}
    (hlow : Unseparated low cs) : Unseparated high cs := by
  induction cs generalizing low high with
  | nil => trivial
  | cons c cs ih =>
    refine ⟨?_, ih (depthAfter_le h c) hlow.2⟩
    have hc := hlow.1
    simp only [separates, Bool.and_eq_false_iff, decide_eq_false_iff_not] at hc ⊢
    rcases hc with hc | hc
    · exact .inl hc
    · exact .inr (by omega)

/-- Text without brackets and separators. -/
def Flat (cs : List Char) : Prop :=
  ∀ c ∈ cs, c ≠ ',' ∧ c ≠ ';' ∧ c ≠ '<' ∧ c ≠ '[' ∧ c ≠ '(' ∧ c ≠ '>' ∧ c ≠ ']' ∧ c ≠ ')'

instance : DecidablePred Flat := fun cs => inferInstanceAs (Decidable (∀ c ∈ cs, _))

lemma Flat.foldl_depthAfter {cs : List Char} (h : Flat cs) (depth : Int) :
    cs.foldl depthAfter depth = depth := by
  induction cs with
  | nil => rfl
  | cons c cs ih =>
    obtain ⟨-, -, h1, h2, h3, h4, h5, h6⟩ := h c List.mem_cons_self
    have hc : depthAfter depth c = depth := by simp [depthAfter, h1, h2, h3, h4, h5, h6]
    rw [List.foldl_cons, hc, ih fun d hd => h d (List.mem_cons_of_mem _ hd)]

lemma Flat.unseparated {cs : List Char} (h : Flat cs) (depth : Int) : Unseparated depth cs := by
  induction cs generalizing depth with
  | nil => trivial
  | cons c cs ih =>
    obtain ⟨h1, h2, -⟩ := h c List.mem_cons_self
    exact ⟨by simp [separates, h1, h2], ih (fun d hd => h d (List.mem_cons_of_mem _ hd)) _⟩

lemma Flat.append {x y : List Char} (hx : Flat x) (hy : Flat y) : Flat (x ++ y) :=
  fun c hc => (List.mem_append.1 hc).elim (hx c) (hy c)

lemma flat_of_forall {p : Char → Bool} {cs : List Char} (h : ∀ c ∈ cs, p c = true)
    (hp : [',', ';', '<', '[', '(', '>', ']', ')'].all (fun c => !p c) = true) : Flat cs := by
  intro c hc
  have hpc := h c hc
  simp only [List.all_cons, List.all_nil, Bool.and_true, Bool.and_eq_true,
    Bool.not_eq_true'] at hp
  obtain ⟨h1, h2, h3, h4, h5, h6, h7, h8⟩ := hp
  refine ⟨?_, ?_, ?_, ?_, ?_, ?_, ?_, ?_⟩ <;> rintro rfl <;> simp_all

/-! ## Commas inside brackets -/

/-- Every comma of a text stands inside brackets: more have been opened before it than closed. -/
def CommasEnclosed (cs : List Char) : Prop :=
  ∀ before after, cs = before ++ ',' :: after → 0 < before.foldl depthAfter 0

lemma unseparated_iff_forall {depth : Int} {cs : List Char} :
    Unseparated depth cs ↔
      ∀ before c after, cs = before ++ c :: after →
        separates (before.foldl depthAfter depth) c = false := by
  induction cs generalizing depth with
  | nil => simp [Unseparated]
  | cons c cs ih =>
    rw [Unseparated, ih]
    constructor
    · rintro ⟨hc, hcs⟩ before d after heq
      cases before with
      | nil =>
        rw [List.nil_append, List.cons.injEq] at heq
        exact heq.1 ▸ hc
      | cons b before =>
        rw [List.cons_append, List.cons.injEq] at heq
        rw [List.foldl_cons, ← heq.1]
        exact hcs before d after heq.2
    · intro h
      refine ⟨h [] c cs rfl, fun before d after heq => ?_⟩
      have hd := h (c :: before) d after (by rw [heq, List.cons_append])
      rwa [List.foldl_cons] at hd

lemma unseparated_iff_commasEnclosed {type : List Char} (h : isType type = true) :
    Unseparated 0 type ↔ CommasEnclosed type := by
  rw [unseparated_iff_forall]
  constructor
  · intro hall before after heq
    have hcomma := hall before ',' after heq
    simpa [separates] using hcomma
  · intro hall before c after heq
    have hsemicolon : c ≠ ';' := by
      rintro rfl
      have hmem := mem_of_isType h ';' (heq ▸ List.mem_append_right _ List.mem_cons_self)
      revert hmem
      decide
    by_cases hcomma : c = ','
    · have hpos := hall before after (hcomma ▸ heq)
      simpa [separates, hcomma] using hpos
    · simp [separates, hcomma, hsemicolon]

/-! ## Names -/

lemma readName_append {name rest : List Char} (hname : isName name = true)
    (hrest : ∀ c, rest.head? = some c → isWord c = false) :
    readName (name ++ rest) = some (name, rest) := by
  obtain ⟨hne, hword⟩ := isName_iff.1 hname
  obtain ⟨htake, hdrop⟩ := takeWhile_append_stop hword hrest
  rw [readName, htake, hdrop]
  cases name with
  | nil => exact absurd rfl hne
  | cons c cs => rfl

/-- What is read as a name is one, and what is left follows it. -/
lemma readName_sound {cs name rest : List Char} (h : readName cs = some (name, rest)) :
    isName name = true ∧ name ++ rest = cs := by
  unfold readName at h
  split at h
  next => cases h
  next hne =>
    obtain ⟨rfl, rfl⟩ := Prod.mk.inj (Option.some.inj h)
    exact ⟨isName_iff.2 ⟨hne, fun c hc => List.mem_takeWhile_imp hc⟩,
      List.takeWhile_append_dropWhile⟩

lemma flat_of_isName {name : List Char} (h : isName name = true) : Flat name :=
  flat_of_forall (isName_iff.1 h).2 (by decide +kernel)

lemma flat_of_isBlank {blanks : List Char} (h : ∀ b ∈ blanks, isBlank b = true) : Flat blanks :=
  flat_of_forall h (by decide +kernel)

lemma inert_of_isType {type : List Char} (h : isType type = true) : Inert type := by
  refine inert_of_forall (p := fun c => isTypeChar c || c == ',' || isBlank c) (fun c hc => ?_)
    (by decide +kernel)
  rcases mem_of_isType h c hc with hc | hc | hc
  · simp [hc]
  · simp [hc]
  · simp [hc]

/-! ## Fields that can be written -/

/-- A name and a type that a field list gives back: the commas of the type separate nothing. -/
structure Writable (name type : String) : Prop where
  isName : isName name.toList = true
  isType : isType type.toList = true
  commasEnclosed : CommasEnclosed type.toList

/-- What stands before the type of a written field. -/
def fieldKey (name : String) (optional : Bool) : List Char :=
  name.toList ++ (if optional then ['?'] else []) ++ [':', ' ']

lemma toList_render_stateField (f : StateField) :
    f.render.toList = fieldKey f.name f.optional ++ f.type.toList := by
  cases hoptional : f.optional <;> simp [StateField.render, fieldKey, hoptional]

lemma toList_render_typeField (f : TypeField) :
    f.render.toList = fieldKey f.name false ++ f.type.toList := by
  simp [TypeField.render, fieldKey]

/-- A field of a type is spelled like a field of a state that is not optional. -/
lemma render_typeField (f : TypeField) : f.render = (StateField.mk f.name f.type false).render := by
  apply String.toList_inj.1
  rw [toList_render_typeField, toList_render_stateField]

variable {name type : String}

lemma flat_fieldKey (hname : Text.isName name.toList = true) (optional : Bool) :
    Flat (fieldKey name optional) := by
  have hrest : Flat ((if optional then ['?'] else []) ++ [':', ' ']) := by
    cases optional <;> decide +kernel
  rw [fieldKey, List.append_assoc]
  exact (flat_of_isName hname).append hrest

/-- The line of a written field is one piece. -/
lemma pieces_field (h : Writable name type) (optional : Bool) :
    pieces (fieldKey name optional ++ type.toList) = [fieldKey name optional ++ type.toList] := by
  have hkey := flat_fieldKey h.isName optional
  apply piecesFrom_eq_singleton
  rw [unseparated_append, hkey.foldl_depthAfter]
  exact ⟨hkey.unseparated 0, (unseparated_iff_commasEnclosed h.isType).2 h.commasEnclosed⟩

lemma dropBlanks_name_append (hname : Text.isName name.toList = true) (rest : List Char) :
    dropBlanks (name.toList ++ rest) = name.toList ++ rest := by
  obtain ⟨hne, hword⟩ := isName_iff.1 hname
  rw [dropBlanks_eq_self]
  intro c hc
  cases hlist : name.toList with
  | nil => exact absurd hlist hne
  | cons d ds =>
    rw [hlist, List.cons_append, List.head?_cons, Option.some.injEq] at hc
    rw [hlist] at hword
    exact isBlank_eq_false_of_isWord (hword c (hc ▸ List.mem_cons_self))

lemma readType_field (h : isType type.toList = true) :
    readType (dropBlanks (' ' :: type.toList)) = some (type.toList, []) := by
  obtain ⟨c, tail, hlist, hchar, -⟩ := isType_iff.1 h
  have hdrop : dropBlanks (' ' :: type.toList) = type.toList := by
    rw [← List.singleton_append, dropBlanks_append (by decide), dropBlanks_eq_self]
    intro d hd
    rw [hlist, List.head?_cons, Option.some.injEq] at hd
    exact isBlank_eq_false_of_isTypeChar (hd ▸ hchar)
  have hread := readType_append h endsType_nil
  rw [List.append_nil] at hread
  rw [hdrop, hread]

lemma readStateField_field (h : Writable name type) (optional : Bool) :
    readStateField (fieldKey name optional ++ type.toList) = some ⟨name, type, optional⟩ := by
  have hcolon : dropBlanks (':' :: ' ' :: type.toList) = ':' :: ' ' :: type.toList :=
    dropBlanks_of_not_isBlank rfl _
  cases optional with
  | false =>
    have hname : readName (name.toList ++ (':' :: ' ' :: type.toList)) =
        some (name.toList, ':' :: ' ' :: type.toList) :=
      readName_append h.isName fun c hc => by cases hc; decide
    simp [fieldKey, readStateField, dropBlanks_name_append h.isName, hname, expect, hcolon,
      readType_field h.isType]
  | true =>
    have hname : readName (name.toList ++ ('?' :: ':' :: ' ' :: type.toList)) =
        some (name.toList, '?' :: ':' :: ' ' :: type.toList) :=
      readName_append h.isName fun c hc => by cases hc; decide
    simp [fieldKey, readStateField, dropBlanks_name_append h.isName, hname, expect, hcolon,
      readType_field h.isType]

lemma readTypeField_field (h : Writable name type) :
    readTypeField (fieldKey name false ++ type.toList) = some ⟨name, type⟩ := by
  have hcolon : dropBlanks (':' :: ' ' :: type.toList) = ':' :: ' ' :: type.toList :=
    dropBlanks_of_not_isBlank rfl _
  have hname : readName (name.toList ++ (':' :: ' ' :: type.toList)) =
      some (name.toList, ':' :: ' ' :: type.toList) :=
    readName_append h.isName fun c hc => by cases hc; decide
  simp [fieldKey, readTypeField, dropBlanks_name_append h.isName, hname, expect, hcolon,
    readType_field h.isType]

/-- A field of a state block comes back from a line of its own. -/
theorem stateFields_render {f : StateField} (h : Writable f.name f.type) :
    stateFields f.render.toList = [f] := by
  rw [stateFields, toList_render_stateField, pieces_field h]
  simp [readStateField_field h]

/-- A field of a type comes back from a line of its own. -/
theorem typeFields_render {f : TypeField} (h : Writable f.name f.type) :
    typeFields f.render.toList = [f] := by
  rw [typeFields, toList_render_typeField, pieces_field h]
  simp [readTypeField_field h]

/-! ## Fields that were read -/

/-- A stretch of text that ends in a field: what stands before the type shows neither brackets nor
separators. -/
def HoldsField (piece : List Char) (name type : String) : Prop :=
  isName name.toList = true ∧ isType type.toList = true ∧
    ∃ before rest, Flat before ∧ piece = before ++ (type.toList ++ rest)

/-- What follows the name of a field, its mark and blanks taken off, holds the type. -/
lemma holdsField_of_read {piece name tail type left after : List Char} {mark : List Char}
    (hmark : Flat mark) (hname : readName (dropBlanks piece) = some (name, mark ++ tail))
    (hcolon : dropBlanks tail = ':' :: left)
    (htype : readType (dropBlanks left) = some (type, after)) :
    HoldsField piece (String.ofList name) (String.ofList type) := by
  obtain ⟨hisName, happend⟩ := readName_sound hname
  obtain ⟨hisType, hafter⟩ := readType_sound htype
  obtain ⟨blanks, hblanks, hpiece⟩ := exists_dropBlanks piece
  obtain ⟨blanks', hblanks', htail⟩ := exists_dropBlanks tail
  obtain ⟨blanks'', hblanks'', hleft⟩ := exists_dropBlanks left
  rw [HoldsField, String.toList_ofList, String.toList_ofList]
  refine ⟨hisName, hisType, blanks ++ name ++ mark ++ blanks' ++ [':'] ++ blanks'', after, ?_, ?_⟩
  · exact ((((((flat_of_isBlank hblanks).append (flat_of_isName hisName)).append hmark).append
      (flat_of_isBlank hblanks')).append (by decide)).append (flat_of_isBlank hblanks''))
  · rw [hpiece, ← happend, htail, hcolon, hleft, ← hafter]
    simp only [List.append_assoc, List.cons_append, List.nil_append]

lemma holdsField_of_readStateField {piece : List Char} {f : StateField}
    (h : readStateField piece = some f) : HoldsField piece f.name f.type := by
  simp only [readStateField, Option.bind_eq_bind, Option.bind_eq_some_iff, Option.pure_def,
    Option.some.injEq, Prod.exists, expect_eq_some] at h
  obtain ⟨name, rest, hname, left, hcolon, type, after, htype, rfl⟩ := h
  cases hmark : expect '?' rest with
  | none =>
    rw [hmark] at hcolon
    have hplain : Flat [] := by decide
    exact holdsField_of_read hplain hname hcolon htype
  | some tail =>
    rw [hmark] at hcolon
    have hquestion : Flat ['?'] := by decide
    rw [expect_eq_some.1 hmark] at hname
    exact holdsField_of_read hquestion hname hcolon htype

lemma holdsField_of_readTypeField {piece : List Char} {f : TypeField}
    (h : readTypeField piece = some f) : HoldsField piece f.name f.type := by
  simp only [readTypeField, Option.bind_eq_bind, Option.bind_eq_some_iff, Option.pure_def,
    Option.some.injEq, Prod.exists, expect_eq_some] at h
  obtain ⟨name, rest, hname, left, hcolon, type, after, htype, rfl⟩ := h
  have hplain : Flat [] := by decide
  exact holdsField_of_read hplain hname hcolon htype

lemma HoldsField.writable {segment piece : List Char} (hpiece : piece ∈ pieces segment)
    (h : HoldsField piece name type) : Writable name type := by
  obtain ⟨hisName, hisType, before, rest, hflat, rfl⟩ := h
  obtain ⟨start, hstart, hunseparated⟩ :=
    unseparated_of_mem_piecesFrom (Int.le_refl 0) segment _ hpiece
  rw [unseparated_append, hflat.foldl_depthAfter, unseparated_append] at hunseparated
  exact ⟨hisName, hisType,
    (unseparated_iff_commasEnclosed hisType).1 (hunseparated.2.1.mono hstart)⟩

/-- A field that was read stands in a piece of its own. -/
lemma exists_piece_of_mem_stateFields {segment : List Char} {f : StateField}
    (h : f ∈ stateFields segment) : ∃ piece ∈ pieces segment, HoldsField piece f.name f.type := by
  obtain ⟨piece, hpiece, hread⟩ := List.mem_filterMap.1 h
  exact ⟨piece, hpiece, holdsField_of_readStateField hread⟩

lemma exists_piece_of_mem_typeFields {segment : List Char} {f : TypeField}
    (h : f ∈ typeFields segment) : ∃ piece ∈ pieces segment, HoldsField piece f.name f.type := by
  obtain ⟨piece, hpiece, hread⟩ := List.mem_filterMap.1 h
  exact ⟨piece, hpiece, holdsField_of_readTypeField hread⟩

/-- Every field that was read can be written. -/
theorem writable_of_mem_stateFields {segment : List Char} {f : StateField}
    (h : f ∈ stateFields segment) : Writable f.name f.type := by
  obtain ⟨piece, hpiece, hholds⟩ := exists_piece_of_mem_stateFields h
  exact hholds.writable hpiece

/-- Every field of a type that was read can be written. -/
theorem writable_of_mem_typeFields {segment : List Char} {f : TypeField}
    (h : f ∈ typeFields segment) : Writable f.name f.type := by
  obtain ⟨piece, hpiece, hholds⟩ := exists_piece_of_mem_typeFields h
  exact hholds.writable hpiece

end AgentScript.Script
