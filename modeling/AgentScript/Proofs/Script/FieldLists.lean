import AgentScript.Proofs.Graph.Members
import AgentScript.Proofs.Script.OwnLevel
import AgentScript.Proofs.Script.Places

/-!
# Field lists read the same however they are broken into lines

The fields of a state block or a type may be written one per line, or several in a line with commas
and semicolons between them; the first may stand on the line of the header, and the closing brace
behind the last.  Whatever is chosen, the same fields are read (`fields_of_laidOut`).

What has to be shown is that a separator is found where one was written, and nowhere else.  The cutting
of a line counts brackets from the left, so a field must leave the count where it found it: it closes
as many brackets as it opens (`Listable`).  The commas of its type are inside brackets, and hence no
separators.  A row of fields is neither quoted nor a comment, as long as its header is not: only the
parameters of a tool that is opened before it in its line could make it so (`Occurrence.InCode`,
`inCode_of_hasPlainTools`).
-/

namespace AgentScript.Script

open AgentScript.Text

/-! ## Rows -/

/-- A text that lists things: between any two a separator, around each blanks at will. -/
inductive Row {α : Type} (spell : α → List Char) : List Char → List α → Prop
  | blanks {cs : List Char} (h : Blanks cs) : Row spell cs []
  | single {before behind : List Char} {x : α} (hbefore : Blanks before) (hbehind : Blanks behind) :
    Row spell (before ++ spell x ++ behind) [x]
  | separated {cs ds : List Char} {xs ys : List α} {mark : Char} (hmark : mark = ',' ∨ mark = ';')
    (hcs : Row spell cs xs) (hds : Row spell ds ys) : Row spell (cs ++ mark :: ds) (xs ++ ys)

/-- The lines list things in rows, the last of which is followed by a closing brace. -/
def LaidOut {α : Type} (spell : α → List Char) (xs : List α) (ls : List (List Char)) : Prop :=
  ∃ rows last behind after groups, ls = rows ++ (last ++ '}' :: behind) :: after ∧
    List.Forall₂ (Row spell) (rows ++ [last]) groups ∧ groups.flatten = xs

section Layouts

variable {α : Type} {spell : α → List Char} {cs gap : List Char} {xs : List α} {mark : Char}

lemma blanks_nil : Blanks [] := fun _ h => absurd h List.not_mem_nil

lemma Row.blanks_append (hgap : Blanks gap) (h : Row spell cs xs) : Row spell (gap ++ cs) xs := by
  induction h with
  | blanks hcs => exact .blanks (List.forall_mem_append.2 ⟨hgap, hcs⟩)
  | single hbefore hbehind =>
    rw [← List.append_assoc, ← List.append_assoc]
    exact .single (List.forall_mem_append.2 ⟨hgap, hbefore⟩) hbehind
  | separated hmark _ hds ihcs _ =>
    rw [← List.append_assoc]
    exact .separated hmark ihcs hds

/-- One behind the other, with the same mark and the same gap between any two. -/
lemma row_intercalate (hmark : mark = ',' ∨ mark = ';') (hgap : Blanks gap) (xs : List α) :
    Row spell ((mark :: gap).intercalate (xs.map spell)) xs := by
  have hsingle : ∀ x, Row spell (spell x) [x] := by
    intro x
    have hone : Row spell ([] ++ spell x ++ []) [x] := .single blanks_nil blanks_nil
    rwa [List.nil_append, List.append_nil] at hone
  induction xs with
  | nil => exact .blanks blanks_nil
  | cons x xs ih =>
    cases xs with
    | nil => simpa using hsingle x
    | cons y ys =>
      have hothers := Row.separated hmark (hsingle x) (ih.blanks_append hgap)
      simpa using hothers

/-- All in one line. -/
lemma laidOut_line {row : List Char} (h : Row spell row xs) (behind : List Char)
    (after : List (List Char)) : LaidOut spell xs ((row ++ '}' :: behind) :: after) :=
  ⟨[], row, behind, after, [xs], rfl, .cons h .nil, List.flatten_singleton⟩

/-- Each in a line of its own, behind the line of the header and before that of the brace. -/
lemma laidOut_lines {indent blanks : List Char} (hindent : Blanks indent) (hblanks : Blanks blanks)
    (xs : List α) (behind : List Char) (after : List (List Char)) :
    LaidOut spell xs
      ([] :: xs.map (indent ++ spell ·) ++ (blanks ++ '}' :: behind) :: after) := by
  have hones : List.Forall₂ (Row spell) (xs.map (indent ++ spell ·)) (xs.map ([·])) := by
    rw [List.forall₂_map_left_iff, List.forall₂_map_right_iff, List.forall₂_same]
    intro x _
    have hone : Row spell (indent ++ spell x ++ []) [x] := .single hindent blanks_nil
    rwa [List.append_nil] at hone
  have hflatten : ([] :: (xs.map ([·]) ++ [[]])).flatten = xs := by
    rw [List.flatten_cons, List.nil_append, List.flatten_append, ← List.flatMap_def,
      List.flatMap_singleton']
    exact List.append_nil xs
  exact ⟨[] :: xs.map (indent ++ spell ·), blanks, behind, after, [] :: (xs.map ([·]) ++ [[]]), rfl,
    .cons (.blanks blanks_nil) (List.rel_append hones (.cons (.blanks hblanks) .nil)), hflatten⟩

end Layouts

/-- A name and a type that a list gives back, whatever stands behind them: they can be written, and as
many brackets of the type are closed as are opened. -/
structure Listable (name type : String) : Prop extends Writable name type where
  closed : type.toList.foldl depthAfter 0 = 0

lemma listable_iff {name type : String} :
    Listable name type ↔ isName name.toList = true ∧ isType type.toList = true ∧
      Unseparated 0 type.toList ∧ type.toList.foldl depthAfter 0 = 0 := by
  constructor
  · intro h
    exact ⟨h.isName, h.isType, (unseparated_iff_commasEnclosed h.isType).2 h.commasEnclosed, h.closed⟩
  · rintro ⟨hname, htype, hcommas, hclosed⟩
    exact ⟨⟨hname, htype, (unseparated_iff_commasEnclosed htype).1 hcommas⟩, hclosed⟩

instance (name type : String) : Decidable (Listable name type) := decidable_of_iff' _ listable_iff

/-! ## Cutting a row -/

section Cutting

variable {α : Type} {read : List Char → Option α} {spell : α → List Char} {cs ds : List Char}
  {xs : List α} {depth : Int} {mark : Char}

lemma piecesFrom_ne_nil (depth : Int) (cs : List Char) : piecesFrom depth cs ≠ [] := by
  obtain ⟨before, last, heq, -⟩ :=
    piecesFrom_append_blanks (fun _ h => absurd h List.not_mem_nil) depth cs
  rw [heq]
  exact List.append_ne_nil_of_right_ne_nil _ (List.cons_ne_nil _ _)

lemma depthAfter_of_separates (h : separates depth mark = true) : depthAfter depth mark = depth := by
  rw [separates, Bool.and_eq_true, Bool.or_eq_true, beq_iff_eq, beq_iff_eq] at h
  rcases h.1 with rfl | rfl <;> rfl

/-- Text is cut at a separator, and on either side for itself. -/
lemma piecesFrom_append_mark (h : separates (cs.foldl depthAfter depth) mark = true)
    (ds : List Char) : piecesFrom depth (cs ++ mark :: ds) =
      piecesFrom depth cs ++ piecesFrom (cs.foldl depthAfter depth) ds := by
  induction cs generalizing depth with
  | nil =>
    rw [List.foldl_nil] at h
    change piecesFrom depth (mark :: ds) = [[]] ++ piecesFrom depth ds
    rw [piecesFrom, if_pos h, List.singleton_append]
  | cons c cs ih =>
    have hcs := ih h
    rw [List.cons_append, piecesFrom, piecesFrom]
    by_cases hc : separates depth c = true
    · rw [depthAfter_of_separates hc] at hcs
      rw [if_pos hc, if_pos hc, List.foldl_cons, depthAfter_of_separates hc, hcs, List.cons_append]
    · rw [if_neg hc, if_neg hc, hcs, List.foldl_cons]
      cases hpieces : piecesFrom (depthAfter depth c) cs with
      | nil => exact absurd hpieces (piecesFrom_ne_nil _ _)
      | cons piece others => rfl

/-- What is spelled is one piece, which can be read wherever it stands. -/
structure ComesBack (read : List Char → Option α) (spell : α → List Char) (x : α) : Prop where
  read_spell : read (spell x) = some x
  unseparated : Unseparated 0 (spell x)
  closed : (spell x).foldl depthAfter 0 = 0
  inert : Inert (spell x)

/-- A row is read as what it lists. -/
lemma Row.filterMap_pieces (h : Row spell cs xs)
    (hfront : ∀ blanks, Blanks blanks → ∀ piece, read (blanks ++ piece) = read piece)
    (hback : ∀ blanks, Blanks blanks → ∀ piece, read (piece ++ blanks) = read piece)
    (hnone : read [] = none) (hxs : ∀ x ∈ xs, ComesBack read spell x) :
    (pieces cs).filterMap read = xs ∧ cs.foldl depthAfter 0 = 0 ∧ Inert cs := by
  induction h with
  | blanks hblanks =>
    refine ⟨?_, (flat_of_isBlank hblanks).foldl_depthAfter 0, inert_of_isBlank hblanks⟩
    have hread := hback _ hblanks []
    rw [List.nil_append, hnone] at hread
    rw [Reading.pieces_blank hblanks, List.filterMap_cons, hread, List.filterMap_nil]
  | @single before behind x hbefore hbehind =>
    have hx := hxs x List.mem_cons_self
    have hdepth : (before ++ spell x).foldl depthAfter 0 = 0 := by
      rw [List.foldl_append, (flat_of_isBlank hbefore).foldl_depthAfter, hx.closed]
    have hone : pieces (before ++ spell x ++ behind) = [before ++ spell x ++ behind] := by
      apply piecesFrom_eq_singleton
      rw [unseparated_append, unseparated_append, hdepth,
        (flat_of_isBlank hbefore).foldl_depthAfter]
      exact ⟨⟨(flat_of_isBlank hbefore).unseparated 0, hx.unseparated⟩,
        (flat_of_isBlank hbehind).unseparated 0⟩
    refine ⟨?_, ?_, ((inert_of_isBlank hbefore).append hx.inert).append
      (inert_of_isBlank hbehind)⟩
    · rw [hone, List.filterMap_cons, hback behind hbehind, hfront before hbefore, hx.read_spell]
      rfl
    · rw [List.foldl_append, hdepth, (flat_of_isBlank hbehind).foldl_depthAfter]
  | @separated cs ds xs ys mark hmark _ _ ihcs ihds =>
    obtain ⟨hcs, hdepth, hinert⟩ := ihcs fun x hx => hxs x (List.mem_append_left _ hx)
    obtain ⟨hds, hdepth', hinert'⟩ := ihds fun y hy => hxs y (List.mem_append_right _ hy)
    have hseparates : separates 0 mark = true := by
      rcases hmark with rfl | rfl <;> rfl
    have hmark : Inert [mark] := by
      rcases hmark with rfl | rfl <;> decide
    refine ⟨?_, ?_, hinert.append (.append (x := [mark]) hmark hinert')⟩
    · rw [pieces, piecesFrom_append_mark (by rwa [hdepth]), List.filterMap_append, hdepth]
      exact congrArg₂ _ hcs hds
    · rw [List.foldl_append, hdepth, List.foldl_cons, depthAfter_of_separates hseparates, hdepth']

end Cutting

/-! ## Rows of fields -/

section Fields

variable {name type : String} {row : List Char} {rows : List (List Char)}

/-- What stands before the type of a field leaves the depth as it is. -/
lemma Listable.closed_field (h : Listable name type) (optional : Bool) :
    (fieldKey name optional ++ type.toList).foldl depthAfter 0 = 0 := by
  rw [List.foldl_append, (flat_fieldKey h.isName optional).foldl_depthAfter, h.closed]

lemma Listable.unseparated_field (h : Listable name type) (optional : Bool) :
    Unseparated 0 (fieldKey name optional ++ type.toList) := by
  have hkey := flat_fieldKey h.isName optional
  rw [unseparated_append, hkey.foldl_depthAfter]
  exact ⟨hkey.unseparated 0, (unseparated_iff_commasEnclosed h.isType).2 h.commasEnclosed⟩

lemma comesBack_stateField {f : StateField} (h : Listable f.name f.type) :
    ComesBack readStateField (·.render.toList) f where
  read_spell := by
    rw [toList_render_stateField]
    exact readStateField_field h.toWritable f.optional
  unseparated := by
    rw [toList_render_stateField]
    exact h.unseparated_field f.optional
  closed := by
    rw [toList_render_stateField]
    exact h.closed_field f.optional
  inert := inert_render h.toWritable

lemma comesBack_typeField {f : TypeField} (h : Listable f.name f.type) :
    ComesBack readTypeField (·.render.toList) f where
  read_spell := by
    rw [toList_render_typeField]
    exact readTypeField_field h.toWritable
  unseparated := by
    rw [toList_render_typeField]
    exact h.unseparated_field false
  closed := by
    rw [toList_render_typeField]
    exact h.closed_field false
  inert := by
    rw [render_typeField]
    exact inert_render (f := ⟨f.name, f.type, false⟩) h.toWritable

lemma stateFields_row {fields : List StateField} (h : Row (·.render.toList) row fields)
    (hfields : ∀ f ∈ fields, Listable f.name f.type) :
    stateFields row = fields ∧ Inert row := by
  have hfront : ∀ blanks, Blanks blanks → ∀ piece,
      readStateField (blanks ++ piece) = readStateField piece := by
    intro blanks hblanks piece
    rw [readStateField_eq, readStateField_eq, dropBlanks_append hblanks]
  obtain ⟨hread, -, hinert⟩ := h.filterMap_pieces hfront
    (fun blanks hblanks => readStateField_append_blanks hblanks) rfl
    fun f hf => comesBack_stateField (hfields f hf)
  exact ⟨hread, hinert⟩

lemma typeFields_row {fields : List TypeField} (h : Row (·.render.toList) row fields)
    (hfields : ∀ f ∈ fields, Listable f.name f.type) :
    typeFields row = fields ∧ Inert row := by
  have hfront : ∀ blanks, Blanks blanks → ∀ piece,
      readTypeField (blanks ++ piece) = readTypeField piece := by
    intro blanks hblanks piece
    rw [readTypeField_eq, readTypeField_eq, dropBlanks_append hblanks]
  obtain ⟨hread, -, hinert⟩ := h.filterMap_pieces hfront
    (fun blanks hblanks => readTypeField_append_blanks hblanks) rfl
    fun f hf => comesBack_typeField (hfields f hf)
  exact ⟨hread, hinert⟩

/-- Rows one after the other are read as all that they list. -/
lemma flatMap_rows {α : Type} {spell : α → List Char} {fieldsOf : List Char → List α}
    {groups : List (List α)} (h : List.Forall₂ (Row spell) rows groups)
    (hrow : ∀ row xs, Row spell row xs → (∀ x ∈ xs, x ∈ groups.flatten) →
      fieldsOf row = xs ∧ Inert row) :
    (rows.flatMap fun row => fieldsOf (mask .code row)) = groups.flatten ∧
      ∀ row ∈ rows, Inert row := by
  induction h with
  | nil => exact ⟨rfl, fun _ h => absurd h List.not_mem_nil⟩
  | @cons row xs rows groups hfirst hothers ih =>
    obtain ⟨hfields, hinert⟩ := hrow row xs hfirst fun x hx => List.mem_append_left _ hx
    obtain ⟨hrest, hinerts⟩ := ih fun row' ys hrow' hys =>
      hrow row' ys hrow' fun y hy => List.mem_append_right _ (hys y hy)
    refine ⟨?_, List.forall_mem_cons.2 ⟨hinert, hinerts⟩⟩
    rw [List.flatMap_cons, mask_of_plain hinert.plain, hfields, hrest, List.flatten_cons]

end Fields

/-! ## Reading on -/

namespace Reading

variable {r r' r'' : Reading} {line : Nat} {later : List (List Char)}

/-- What has been recorded of state blocks and types stays recorded. -/
structure Keeps (r r' : Reading) : Prop where
  states : r.states ⊆ r'.states
  types : r.types ⊆ r'.types

lemma keeps_refl (r : Reading) : Keeps r r := ⟨List.Subset.refl _, List.Subset.refl _⟩

lemma Keeps.trans (h : Keeps r r') (h' : Keeps r' r'') : Keeps r r'' :=
  ⟨List.Subset.trans h.states h'.states, List.Subset.trans h.types h'.types⟩

lemma keeps_append (r d : Reading) : Keeps r (r ++ d) :=
  ⟨List.subset_append_left _ _, List.subset_append_left _ _⟩

lemma keeps_openOne (line : Nat) (later : List (List Char)) (r : Reading) (o : Opening) :
    Keeps r (r.openOne line later o) := by
  have hnote : ∀ cause?, Keeps r (r.note line cause?) :=
    fun _ => ⟨List.Subset.refl _, List.Subset.refl _⟩
  rw [openOne_eq]
  exact (hnote _).trans (keeps_append _ _)

lemma keeps_collect (r : Reading) (segment : List Char) : Keeps r (r.collect segment) := by
  unfold collect
  split
  · exact keeps_refl r
  · exact ⟨List.Subset.refl _, List.Subset.refl _⟩

lemma keeps_close (r : Reading) (line : Nat) : Keeps r (r.close line) := by
  cases hr : r.scopes with
  | nil =>
    rw [close_eq_of_nil hr]
    exact ⟨List.Subset.refl _, List.Subset.refl _⟩
  | cons scope outer =>
    have hpop : ∀ cause?, Keeps r (r.pop.note line cause?) :=
      fun _ => ⟨List.Subset.refl _, List.Subset.refl _⟩
    rw [close_eq_of_cons hr]
    exact (hpop _).trans (keeps_append _ _)

lemma keeps_body (line : Nat) (segment cs : List Char) (r : Reading) :
    Keeps r (body line segment cs r) := by
  refine body_induction ?_ ?_ ?_ (keeps_refl r) segment cs
  · exact fun r' segment h => h.trans (keeps_collect r' segment)
  · exact fun r' h => h.trans ⟨List.Subset.refl _, List.Subset.refl _⟩
  · exact fun r' h => h.trans (keeps_close r' line)

lemma keeps_line (line : Nat) (text : List Char) (later : List (List Char)) (r : Reading) :
    Keeps r (r.line line text later) := by
  have hopened : ∀ os : List Opening, Keeps r (os.foldl (openOne line later) r) := fun os =>
    List.foldlRecOn os _ (keeps_refl r) fun r' h o _ => h.trans (keeps_openOne line later r' o)
  exact (hopened _).trans (keeps_body _ _ _ _)

lemma keeps_linesFrom (line : Nat) (ls : List (List Char)) (r : Reading) :
    Keeps r (linesFrom line ls r) :=
  linesFrom_induction (fun r' number text later h => h.trans (keeps_line number text later r'))
    (keeps_refl r) line ls

lemma keeps_finish (r : Reading) (lineCount : Nat) : Keeps r (r.finish lineCount) := by
  have hbare : Keeps r { r with scopes := [] } := ⟨List.Subset.refl _, List.Subset.refl _⟩
  have hone : ∀ r' scope, Keeps r' (finishOne lineCount r' scope) := fun _ _ =>
    ⟨List.subset_append_left _ _, List.subset_append_left _ _⟩
  rw [finish_eq]
  exact List.foldlRecOn r.scopes _ hbare fun r' h scope _ => h.trans (hone r' scope)

/-! ## Reading rows -/

/-- Reads what is left of a line behind its headers, and the lines after it. -/
def restFrom (number : Nat) : List (List Char) → Reading → Reading
  | [], r => r
  | rest :: later, r => linesFrom (number + 1) later (body number [] (mask .code rest) r)

/-- Within fields a line has no headers. -/
lemma linesFrom_eq_restFrom (hfields : r.inFields = true) (number : Nat) (ls : List (List Char)) :
    linesFrom number ls r = restFrom number ls r := by
  cases ls with
  | nil => rfl
  | cons text later => rw [linesFrom_cons, line_of_not_opened (.inl hfields), restFrom]

lemma holdsFields_collect (scope : Scope) (segment : List Char) :
    (scope.collect segment).holdsFields = scope.holdsFields := by
  rw [← holdsFields_bare, bare_collect, holdsFields_bare]

/-- **Rows in a body of fields** are collected one by one, and the brace behind the last closes the
body. -/
theorem restFrom_rows {rows : List (List Char)} {last behind : List Char}
    {after : List (List Char)} (hrows : ∀ row ∈ rows ++ [last], Inert row) {scope : Scope}
    {outer : List Scope} (hscope : scope.holdsFields = true) (hr : r.scopes = scope :: outer)
    (number : Nat) :
    restFrom number (rows ++ (last ++ '}' :: behind) :: after) r =
      restFrom (number + rows.length) (behind :: after)
        ({ r with scopes := (rows ++ [last]).foldl (fun s row => s.collect (mask .code row)) scope ::
          outer }.close (number + rows.length)) := by
  induction rows generalizing number r scope with
  | nil =>
    have hlast : Inert last := hrows last List.mem_cons_self
    have hmask : mask .code (last ++ '}' :: behind) = last ++ '}' :: mask .code behind := by
      rw [mask_plain_append hlast.plain _ fun _ => by rintro ⟨⟩,
        mask_code_cons (by rintro ⟨rest, ⟨⟩⟩)]
      rfl
    rw [List.nil_append, List.nil_append, restFrom, restFrom, hmask,
      body_braceless_append hlast.braceless, body, if_neg (by decide), if_pos rfl, List.nil_append,
      collect, hr, List.foldl_cons, List.foldl_nil, mask_of_plain hlast.plain]
    rfl
  | cons row rows ih =>
    have hrow : Inert row := hrows row List.mem_cons_self
    have hfields : ({ r with scopes := scope.collect (mask .code row) :: outer } :
        Reading).inFields = true := by
      rw [inFields, List.head?_cons, Option.map_some, Option.getD_some, holdsFields_collect, hscope]
    have hcollected := (holdsFields_collect scope (mask .code row)).trans hscope
    have hrest := ih (fun row' hrow' => hrows row' (List.mem_cons_of_mem row hrow')) hcollected
      (r := { r with scopes := scope.collect (mask .code row) :: outer }) rfl (number + 1)
    have hmask := mask_of_plain hrow.plain
    have hcollect : body number [] (mask .code row) r =
        { r with scopes := scope.collect (mask .code row) :: outer } := by
      rw [body_of_braceless (by rw [hmask]; exact hrow.braceless), List.nil_append, collect, hr]
    rw [List.cons_append, List.cons_append, restFrom, hcollect, linesFrom_eq_restFrom hfields, hrest,
      List.length_cons, Nat.add_assoc, Nat.add_comm 1]
    rfl

/-- What is read of a text behind a header only adds to what has been recorded. -/
lemma keeps_restFrom (number : Nat) (ls : List (List Char)) (r : Reading) :
    Keeps r (restFrom number ls r) := by
  cases ls with
  | nil => exact keeps_refl r
  | cons rest later => exact (keeps_body number [] _ r).trans (keeps_linesFrom _ _ _)

/-- Reading may be interrupted after any number of lines. -/
lemma linesFrom_eq_linesUpTo (count number : Nat) (ls : List (List Char)) (r : Reading) :
    linesFrom number ls r =
      linesFrom (number + count) (ls.drop count) (linesUpTo count number ls r) := by
  induction count generalizing number ls r with
  | zero => rfl
  | succ count ih =>
    cases ls with
    | nil => rfl
    | cons text later =>
      rw [linesFrom_cons, ih, linesUpTo, List.drop_succ_cons, Nat.add_right_comm, Nat.add_assoc]

/-! ## What a laid out body leaves -/

variable {number : Nat} {ls : List (List Char)} {place : Place}

lemma mem_states_close {agent : String} {fields : List StateField} {outer : List Scope}
    (hr : r.scopes = .state (some agent) place fields :: outer) (line : Nat) :
    ⟨agent, fields, place⟩ ∈ (r.close line).states := by
  rw [close, hr]
  exact List.mem_append_right _ List.mem_cons_self

lemma mem_types_close {name : String} {fields : List TypeField} {outer : List Scope}
    (hr : r.scopes = .type name place fields :: outer) (line : Nat) :
    ⟨name, fields, place⟩ ∈ (r.close line).types := by
  rw [close, hr]
  exact List.mem_append_right _ List.mem_cons_self

/-- A state block that lists fields is recorded with them. -/
lemma mem_states_of_laidOut {agent : String} {fields : List StateField}
    (hfields : ∀ f ∈ fields, Listable f.name f.type) (h : LaidOut (·.render.toList) fields ls) :
    ⟨agent, fields, place⟩ ∈
      (restFrom number ls (r.push (.state (some agent) place []))).states := by
  obtain ⟨rows, last, behind, after, groups, rfl, hrows, rfl⟩ := h
  obtain ⟨hcollected, hinert⟩ := flatMap_rows hrows fun row xs hrow hxs =>
    stateFields_row hrow fun f hf => hfields f (hxs f hf)
  rw [restFrom_rows hinert rfl rfl, foldl_collect_state, hcollected, List.nil_append]
  exact (keeps_restFrom _ _ _).states (mem_states_close rfl _)

/-- A type that lists fields is recorded with them. -/
lemma mem_types_of_laidOut {name : String} {fields : List TypeField}
    (hfields : ∀ f ∈ fields, Listable f.name f.type) (h : LaidOut (·.render.toList) fields ls) :
    ⟨name, fields, place⟩ ∈ (restFrom number ls (r.push (.type name place []))).types := by
  obtain ⟨rows, last, behind, after, groups, rfl, hrows, rfl⟩ := h
  obtain ⟨hcollected, hinert⟩ := flatMap_rows hrows fun row xs hrow hxs =>
    typeFields_row hrow fun f hf => hfields f (hxs f hf)
  rw [restFrom_rows hinert rfl rfl, foldl_collect_type, hcollected, List.nil_append]
  exact (keeps_restFrom _ _ _).types (mem_types_close rfl _)

end Reading

/-! ## Behind a header of fields -/

namespace Occurrence

/-- What stands behind the header: the rest of its line, and the lines after it. -/
def textBehind (ls : List (List Char)) (m : Occurrence) : List (List Char) :=
  m.opening.rest :: ls.drop m.line

/-- The header ends in the code of its line, not in a literal or a comment. -/
def InCode (ls : List (List Char)) (m : Occurrence) : Prop :=
  ∀ line ∈ ls[m.line - 1]?,
    situationAfter .code (line.take (line.length - m.opening.rest.length)) = .code

end Occurrence

/-- A header whose body holds fields is the last one of its line. -/
lemma eq_nil_of_opensFields {before : Nat} {cs : List Char} {front back : List Opening} {o : Opening}
    (h : openingsFrom before cs = front ++ o :: back) (ho : o.header.opensFields = true) :
    back = [] := by
  induction front generalizing before cs with
  | nil =>
    cases hread : Header.read? cs with
    | none =>
      rw [openingsFrom_of_read?_eq_none hread] at h
      cases h
    | some said =>
      rw [openingsFrom_of_read? hread, List.nil_append] at h
      obtain ⟨rfl, hback⟩ := List.cons.inj h
      rw [← hback]
      exact if_pos ho
  | cons o' front ih =>
    cases hread : Header.read? cs with
    | none =>
      rw [openingsFrom_of_read?_eq_none hread] at h
      cases h
    | some said =>
      rw [openingsFrom_of_read? hread, List.cons_append] at h
      have hothers := (List.cons.inj h).2
      split at hothers
      · exact absurd hothers.symm (List.append_ne_nil_of_right_ne_nil _ (List.cons_ne_nil _ _))
      · exact ih hothers

lemma Heads.upTo {cs rest : List Char} {front back : List Opening} {o : Opening}
    (h : Heads cs (front ++ o :: back) rest) : Heads cs (front ++ [o]) o.rest := by
  induction front generalizing cs with
  | nil =>
    cases h with
    | cons hread _ => exact .cons hread (.nil o.rest)
  | cons o' front ih =>
    cases h with
    | cons hread hos => exact .cons hread (ih hos)

variable {text : String} {m : Occurrence}

/-- Only the parameters of a tool can leave a literal or a comment open in a line of headers. -/
lemma inCode_of_hasPlainTools (h : HasPlainTools text) (hm : m ∈ metHeaders text) :
    m.InCode (scriptLines text) := by
  obtain ⟨xs, line, ys, front, back, hls, hline, hheaders, -⟩ :=
    exists_of_mem_occurrencesIn_metFrom hm
  have hplain : ∀ m ∈ occurrencesFrom 1 [] (scriptLines text), m.header.HasPlainParams := h
  rw [hls, occurrencesFrom_append] at hplain
  have hxs : metFrom 1 [] xs = bracesFrom 1 [] xs :=
    metFrom_eq fun m hm => hplain m (List.mem_append_left _ hm)
  have hfirst := hasPlainParams_headersOf fun m hm => hplain m (List.mem_append_right _ hm)
  have hheads := heads_headersOf ([] ++ metFrom 1 [] xs) line
  rw [← hxs, hheaders] at hfirst
  rw [hheaders] at hheads
  obtain ⟨before, hbefore, hcode⟩ := hheads.upTo.exists_front fun o ho =>
    hfirst o (List.append_cons front m.opening back ▸ List.mem_append_left _ ho)
  intro line' hline'
  rw [getElem?_line hls hline, Option.mem_some_iff] at hline'
  rw [← hline', hbefore, List.length_append, Nat.add_sub_cancel, List.take_left]
  exact situationAfter_of_plain hcode

/-- A header of fields is opened where reading has come to, and the text behind it is read next. -/
lemma exists_reading_eq (hm : m ∈ metHeaders text) (hcode : m.InCode (scriptLines text))
    (hfields : m.header.opensFields = true) :
    ∃ (r : Reading) (later : List (List Char)), r.agent? = m.agent?.map (·.1) ∧
      reading text = (Reading.restFrom m.line (m.textBehind (scriptLines text))
        (r.openOne m.line later m.opening)).finish (scriptLines text).length := by
  obtain ⟨xs, line, ys, front, back, hls, hline, hheaders, hbefore⟩ :=
    exists_of_mem_occurrencesIn_metFrom hm
  have hopenings : openings line = front ++ m.opening :: back := by
    rw [headersOf] at hheaders
    split at hheaders
    · cases front <;> cases hheaders
    · exact hheaders
  obtain rfl := eq_nil_of_opensFields hopenings hfields
  have htake : (scriptLines text).take xs.length = xs := by rw [hls, List.take_left]
  have hdrop : (scriptLines text).drop xs.length = line :: ys := by rw [hls, List.drop_left]
  have hlater : (scriptLines text).drop m.line = ys := by
    rw [hline, Nat.add_comm, ← List.drop_drop, hdrop]
    rfl
  have hcount : m.line - 1 = xs.length := by omega
  have hfollows := follows_readBefore text m.line
  rw [metBefore, readBefore, hcount, htake] at hfollows
  rw [List.nil_append] at hheaders hbefore
  have hfront : Reading.Follows m.before (front.foldl (Reading.openOne m.line ys)
      (Reading.linesUpTo xs.length 1 (scriptLines text) {})) := by
    rw [hbefore]
    exact hfollows.foldl_openOne front
  refine ⟨_, ys, hfront.agent?_eq, ?_⟩
  have hmask : bodyText line (front ++ [m.opening]) = mask .code m.opening.rest := by
    have hthere := hcode line (getElem?_line hls hline)
    rw [bodyText, List.getLast?_concat, Option.map_some, Option.getD_some, hthere]
  rw [reading, Reading.linesFrom_eq_linesUpTo xs.length, hdrop, ← hline, Reading.linesFrom_cons,
    Reading.line, hfollows.opened_eq, hheaders, hmask, List.foldl_append, List.foldl_cons,
    List.foldl_nil, Occurrence.textBehind, hlater, Reading.restFrom]

/-- **The fields of a block** do not depend on how they are laid out: what is recorded for its header
are the fields that the text behind the header lists. -/
theorem fields_of_laidOut (hm : m ∈ metHeaders text) (hcode : m.InCode (scriptLines text)) :
    (∀ agent place fields, m.header = .state → m.agent? = some (agent, place) →
      (∀ f ∈ fields, Listable f.name f.type) →
      LaidOut (·.render.toList) fields (m.textBehind (scriptLines text)) →
      ∀ d, d ∈ (outline text).states ∧ d.place = m.place ↔ d = ⟨agent, fields, m.place⟩) ∧
    (∀ name fields, m.header = .type name →
      (∀ f ∈ fields, Listable f.name f.type) →
      LaidOut (·.render.toList) fields (m.textBehind (scriptLines text)) →
      ∀ d, d ∈ (outline text).types ∧ d.place = m.place ↔ d = ⟨name, fields, m.place⟩) := by
  have hnodup := nodup_place_outline text
  constructor
  · intro agent place fields hheader hagent hfields hlaid d
    obtain ⟨r, later, hinside, hreading⟩ :=
      exists_reading_eq hm hcode (by rw [hheader, Header.opensFields])
    have hopen : r.openOne m.line later m.opening = r.push (.state (some agent) m.place []) := by
      rw [hagent] at hinside
      rw [Reading.openOne, show m.opening.header = .state from hheader]
      exact Reading.openState_of_agent? hinside m.place
    have hmem : ⟨agent, fields, m.place⟩ ∈ (outline text).states := by
      rw [hopen] at hreading
      rw [outline, hreading]
      exact (Reading.keeps_finish _ _).states (Reading.mem_states_of_laidOut hfields hlaid)
    have hunique : ((outline text).states.map (·.place)).Nodup :=
      (List.nodup_append.1 (List.nodup_append.1 hnodup).1).2.1
    constructor
    · rintro ⟨hd, hplace⟩
      exact List.inj_on_of_nodup_map hunique hd hmem hplace
    · rintro rfl
      exact ⟨hmem, rfl⟩
  · intro name fields hheader hfields hlaid d
    obtain ⟨r, later, -, hreading⟩ :=
      exists_reading_eq hm hcode (by rw [hheader, Header.opensFields])
    have hopen : r.openOne m.line later m.opening = r.push (.type name m.place []) := by
      rw [Reading.openOne, show m.opening.header = .type name from hheader]
      rfl
    have hmem : ⟨name, fields, m.place⟩ ∈ (outline text).types := by
      rw [hopen] at hreading
      rw [outline, hreading]
      exact (Reading.keeps_finish _ _).types (Reading.mem_types_of_laidOut hfields hlaid)
    have hunique : ((outline text).types.map (·.place)).Nodup :=
      (List.nodup_append.1 hnodup).2.1
    constructor
    · rintro ⟨hd, hplace⟩
      exact List.inj_on_of_nodup_map hunique hd hmem hplace
    · rintro rfl
      exact ⟨hmem, rfl⟩

/-- A script with a state block of one field in a line and a type with all of them in one. -/
def fieldListsText : String :=
  "agent A \x7b\n  state \x7b\n    scores: Map<string, list[int]>\n    seen?: bool\n  \x7d\n\x7d\n" ++
    "type Pair \x7bleft: int; right: Map<string, int>\x7d\n"

/-- The fields of its state block. -/
def scoreFields : List StateField :=
  [⟨"scores", "Map<string, list[int]>", false⟩, ⟨"seen", "bool", true⟩]

/-- The fields of its type. -/
def pairFields : List TypeField := [⟨"left", "int"⟩, ⟨"right", "Map<string, int>"⟩]

theorem fields_of_laidOut_fieldListsText :
    (∀ d, d ∈ (outline fieldListsText).states ∧ d.place = ⟨2, 3⟩ ↔ d = ⟨"A", scoreFields, ⟨2, 3⟩⟩) ∧
      ∀ d, d ∈ (outline fieldListsText).types ∧ d.place = ⟨7, 1⟩ ↔
        d = ⟨"Pair", pairFields, ⟨7, 1⟩⟩ := by
  have hplain : HasPlainTools fieldListsText := by decide +kernel
  constructor
  · have hmet : ∃ m ∈ metHeaders fieldListsText, m.header = .state ∧
        m.agent? = some ("A", ⟨1, 1⟩) ∧ m.place = ⟨2, 3⟩ ∧ m.textBehind (scriptLines fieldListsText) =
          [] :: scoreFields.map ([' ', ' ', ' ', ' '] ++ ·.render.toList) ++
            ([' ', ' '] ++ ['}']) :: (scriptLines fieldListsText).drop 5 := by decide +kernel
    obtain ⟨m, hm, hheader, hagent, hplace, htext⟩ := hmet
    have hcode := inCode_of_hasPlainTools hplain hm
    have hlaid : LaidOut (·.render.toList) scoreFields
        (m.textBehind (scriptLines fieldListsText)) := by
      rw [htext]
      exact laidOut_lines (by decide) (by decide) _ _ _
    have hfields := (fields_of_laidOut hm hcode).1 "A" ⟨1, 1⟩ scoreFields hheader hagent
      (by decide) hlaid
    rwa [hplace] at hfields
  · have hmet : ∃ m ∈ metHeaders fieldListsText, m.header = .type "Pair" ∧ m.place = ⟨7, 1⟩ ∧
        m.textBehind (scriptLines fieldListsText) =
          [[';', ' '].intercalate (pairFields.map (·.render.toList)) ++ ['}']] := by decide +kernel
    obtain ⟨m, hm, hheader, hplace, htext⟩ := hmet
    have hcode := inCode_of_hasPlainTools hplain hm
    have hlaid : LaidOut (·.render.toList) pairFields
        (m.textBehind (scriptLines fieldListsText)) := by
      rw [htext]
      exact laidOut_line (row_intercalate (.inr rfl) (by decide) _) _ _
    have hfields := (fields_of_laidOut hm hcode).2 "Pair" pairFields hheader (by decide) hlaid
    rwa [hplace] at hfields

end AgentScript.Script
