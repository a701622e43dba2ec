import AgentScript.Proofs.Script.Masking

/-!
# Situations by grammar

A line is masked by going through it once with a situation in hand.  Where the literals and the
comment of a line are can be said without that: a line begins with code and whole literals, and then
it ends, or a literal was opened that is not closed, or a comment begins.  Here the two are brought
together: the situation after a text is the one that the grammar gives it
(`situationAfter_eq_iff`).

One character keeps to the grammar (`Situated.step`), so the whole of a text does (`Situated.run`);
and the grammar leaves no choice, since code and whole literals end in code
(`CodeText.situationAfter_append`).
-/

namespace AgentScript.Script

/-! ## The grammar of a line -/

/-- What may stand in a literal that `q` opened: any character but `q`, and after a reverse solidus
any character at all. -/
inductive LiteralBody (q : Char) : List Char → Prop
  | nil : LiteralBody q []
  | plain {c : Char} {cs : List Char} (hescape : c ≠ '\\') (hquote : c ≠ q)
      (hcs : LiteralBody q cs) : LiteralBody q (c :: cs)
  | escape {c : Char} {cs : List Char} (hcs : LiteralBody q cs) : LiteralBody q ('\\' :: c :: cs)

/-- Code and whole literals, and no comment. -/
inductive CodeText : List Char → Prop
  | nil : CodeText []
  | char {c : Char} {cs : List Char} (hmark : isMark c = false)
      (hcomment : ¬ startsComment (c :: cs)) (hcs : CodeText cs) : CodeText (c :: cs)
  | literal {q : Char} {body cs : List Char} (hmark : isMark q = true) (hbody : LiteralBody q body)
      (hcs : CodeText cs) : CodeText (q :: (body ++ q :: cs))

/-- What a text looks like that ends in the given situation. -/
def Situated (x : List Char) : Literal → Prop
  | .code => CodeText x
  | .quoted q => ∃ code body, x = code ++ q :: body ∧ CodeText code ∧ isMark q = true ∧
      LiteralBody q body
  | .escaped q => ∃ code body, x = code ++ q :: (body ++ ['\\']) ∧ CodeText code ∧
      isMark q = true ∧ LiteralBody q body
  | .comment => ∃ code rest, x = code ++ '/' :: '/' :: rest ∧ CodeText code

variable {q c : Char} {x y body : List Char} {s : Literal}

lemma LiteralBody.append (hx : LiteralBody q x) (hy : LiteralBody q y) :
    LiteralBody q (x ++ y) := by
  induction hx with
  | nil => exact hy
  | plain hescape hquote _ ih => exact .plain hescape hquote ih
  | escape _ ih => exact .escape ih

lemma ne_solidus_of_isMark (h : isMark q = true) : q ≠ '/' := by
  rintro rfl
  cases h

lemma not_startsComment_of_isMark (h : isMark q = true) : ¬ startsComment (q :: x) := by
  rintro ⟨rest, heq⟩
  exact ne_solidus_of_isMark h (List.cons.inj heq).1

lemma not_startsComment_singleton : ¬ startsComment [c] := by
  rintro ⟨rest, ⟨⟩⟩

lemma CodeText.append (hx : CodeText x) (hy : CodeText y)
    (hseam : x.getLast? = some '/' → y.head? ≠ some '/') : CodeText (x ++ y) := by
  induction hx with
  | nil => exact hy
  | @char c cs hmark hcomment hcs ih =>
    exact .char hmark (not_startsComment_append hcomment (List.cons_ne_nil c cs) hseam)
      (ih fun hlast => hseam (getLast?_of_getLast?_tail hlast))
  | @literal q body cs hmark hbody hcs ih =>
    have hrest : cs.getLast? = some '/' → y.head? ≠ some '/' := by
      intro hlast
      apply hseam
      rw [← List.cons_append, List.getLast?_append, getLast?_of_getLast?_tail hlast]
      rfl
    rw [List.cons_append, List.append_assoc, List.cons_append]
    exact .literal hmark hbody (ih hrest)

/-! ## From the text to the grammar -/

/-- One more character, of which no comment begins. -/
lemma Situated.step {cs : List Char} (h : Situated x s) (hends : ¬ s.Ends (c :: cs))
    (hseam : s = .code → x.getLast? = some '/' → c ≠ '/') : Situated (x ++ [c]) (s.next c) := by
  cases s with
  | comment => exact absurd (.inl rfl) hends
  | code =>
    rw [Literal.next]
    split
    next hmark => exact ⟨x, [], rfl, h, hmark, .nil⟩
    next hmark =>
      rw [Bool.not_eq_true] at hmark
      have hc : CodeText [c] := .char hmark not_startsComment_singleton .nil
      refine CodeText.append h hc fun hlast hhead => ?_
      exact hseam rfl hlast (Option.some.inj hhead)
  | quoted q =>
    obtain ⟨code, body, rfl, hcode, hmark, hbody⟩ := h
    rw [Literal.next, List.append_assoc, List.cons_append]
    split_ifs with hescape hquote
    · exact ⟨code, body, by rw [hescape], hcode, hmark, hbody⟩
    · subst hquote
      refine hcode.append (.literal hmark hbody .nil) fun _ hhead => ?_
      exact ne_solidus_of_isMark hmark (Option.some.inj hhead)
    · exact ⟨code, body ++ [c], rfl, hcode, hmark, hbody.append (.plain hescape hquote .nil)⟩
  | escaped q =>
    obtain ⟨code, body, rfl, hcode, hmark, hbody⟩ := h
    refine ⟨code, body ++ ['\\', c], ?_, hcode, hmark, hbody.append (.escape .nil)⟩
    simp

lemma Situated.code_of_next_solidus (h : Situated x s) (hnext : s.next '/' = .code) :
    s = .code := by
  cases s with
  | code => rfl
  | quoted q =>
    obtain ⟨-, -, -, -, hmark, -⟩ := h
    rw [Literal.next, if_neg (by decide), if_neg (ne_solidus_of_isMark hmark).symm] at hnext
    cases hnext
  | escaped q => cases hnext
  | comment => cases hnext

/-- The rest of a text keeps to the grammar if its beginning does. -/
lemma Situated.run (h : Situated x s)
    (hseam : s = .code → x.getLast? = some '/' → y.head? ≠ some '/') :
    Situated (x ++ y) (situationAfter s y) := by
  induction y generalizing x s with
  | nil =>
    rw [List.append_nil, situationAfter]
    exact h
  | cons c cs ih =>
    by_cases hends : s.Ends (c :: cs)
    · rw [situationAfter_of_ends hends]
      obtain rfl | ⟨rfl, rest, heq⟩ := hends
      · obtain ⟨code, rest, rfl, hcode⟩ := h
        exact ⟨code, rest ++ c :: cs, by simp, hcode⟩
      · exact ⟨x, rest, by rw [heq], h⟩
    · have hstep : Situated (x ++ [c]) (s.next c) :=
        h.step hends fun hs hlast hc => hseam hs hlast (congrArg some hc)
      rw [situationAfter_cons hends, ← List.singleton_append, ← List.append_assoc]
      refine ih hstep fun hnext hlast hhead => ?_
      rw [List.getLast?_append, List.getLast?_singleton, Option.some_or, Option.some.injEq] at hlast
      subst hlast
      have hs := h.code_of_next_solidus hnext
      obtain ⟨ds, rfl⟩ := List.head?_eq_some_iff.1 hhead
      exact hends (.inr ⟨hs, ds, rfl⟩)

/-! ## From the grammar to the text -/

lemma LiteralBody.situationAfter_append (hbody : LiteralBody q body) (y : List Char) :
    situationAfter (.quoted q) (body ++ y) = situationAfter (.quoted q) y := by
  induction hbody with
  | nil => rfl
  | plain hescape hquote _ ih =>
    rw [List.cons_append, situationAfter, if_neg hescape, if_neg hquote, ih]
  | escape _ ih =>
    rw [List.cons_append, List.cons_append, situationAfter, if_pos rfl,
      situationAfter_escaped_cons, ih]

/-- After code and whole literals a text is read as by itself, unless a comment begins across the
seam. -/
lemma CodeText.situationAfter_append (hx : CodeText x) (y : List Char) :
    situationAfter .code (x ++ y) = situationAfter .code y ∨
      y.head? = some '/' ∧ situationAfter .code (x ++ y) = .comment := by
  induction hx with
  | nil => exact .inl rfl
  | @char c cs hmark hcomment hcs ih =>
    by_cases hall : startsComment (c :: cs ++ y)
    · refine .inr ⟨?_, situationAfter_of_ends (.inr ⟨rfl, hall⟩)⟩
      by_contra hhead
      exact not_startsComment_append hcomment (List.cons_ne_nil c cs) (fun _ => hhead) hall
    · rw [List.cons_append] at hall ⊢
      rw [situationAfter_code_cons hall, hmark]
      exact ih
  | @literal q body cs hmark hbody hcs ih =>
    have hescape : q ≠ '\\' := by
      rintro rfl
      cases hmark
    rw [List.cons_append, situationAfter_code_cons (not_startsComment_of_isMark hmark), if_pos hmark,
      List.append_assoc, hbody.situationAfter_append, List.cons_append, situationAfter,
      if_neg hescape, if_pos rfl]
    exact ih

lemma CodeText.situationAfter_eq (hx : CodeText x) : situationAfter .code x = .code := by
  obtain h | ⟨hhead, -⟩ := hx.situationAfter_append []
  · rwa [List.append_nil] at h
  · cases hhead

/-- After code and a quote the literal is read that the quote opened. -/
lemma CodeText.situationAfter_opened (hx : CodeText x) (hmark : isMark q = true) (y : List Char) :
    situationAfter .code (x ++ q :: y) = situationAfter (.quoted q) y := by
  obtain h | ⟨hhead, -⟩ := hx.situationAfter_append (q :: y)
  · rw [h, situationAfter_code_cons (not_startsComment_of_isMark hmark), if_pos hmark]
  · exact absurd (Option.some.inj hhead) (ne_solidus_of_isMark hmark)

lemma situationAfter_of_situated (h : Situated x s) : situationAfter .code x = s := by
  cases s with
  | code => exact h.situationAfter_eq
  | quoted q =>
    obtain ⟨code, body, rfl, hcode, hmark, hbody⟩ := h
    have hread := hbody.situationAfter_append []
    rw [hcode.situationAfter_opened hmark, ← List.append_nil body, hread, situationAfter]
  | escaped q =>
    obtain ⟨code, body, rfl, hcode, hmark, hbody⟩ := h
    rw [hcode.situationAfter_opened hmark, hbody.situationAfter_append, situationAfter, if_pos rfl,
      situationAfter]
  | comment =>
    obtain ⟨code, rest, rfl, hcode⟩ := h
    have hcomment : situationAfter .code ('/' :: '/' :: rest) = .comment :=
      situationAfter_of_ends (.inr ⟨rfl, rest, rfl⟩)
    obtain h | ⟨-, h⟩ := hcode.situationAfter_append ('/' :: '/' :: rest)
    · rw [h, hcomment]
    · exact h

/-- The situation after a text is the one that the grammar gives it. -/
theorem situationAfter_eq_iff : situationAfter .code x = s ↔ Situated x s := by
  constructor
  · rintro rfl
    have hnil : Situated [] .code := CodeText.nil
    exact hnil.run fun _ hlast => by cases hlast
  · exact situationAfter_of_situated

end AgentScript.Script
