import AgentScript.Proofs.Text.Splitting
import AgentScript.Script.Literal
import AgentScript.Text.Word
import Mathlib.Tactic.Common

/-!
# Masking in parts

Masking reads a line from left to right, so a line can be masked part by part, each from the
situation the part before it ends in; only a comment sign must not be cut in two
(`mask_append`).  Text without quotes and solidi is left as it is, and a literal shows nothing but
its quotes and spaces, whatever it holds.  The braces that count are then read off the parts.
-/

namespace AgentScript.Script

open AgentScript.Text

/-! ## Character by character -/

/-- Whether a comment begins right here. -/
def startsComment (cs : List Char) : Prop := ∃ rest, cs = '/' :: '/' :: rest

/-- Whether what is left of a line is a comment. -/
def Literal.Ends (s : Literal) (cs : List Char) : Prop :=
  s = .comment ∨ s = .code ∧ startsComment cs

/-- The situation after a character that begins no comment. -/
def Literal.next : Literal → Char → Literal
  | .code, c => if isMark c then .quoted c else .code
  | .quoted q, c => if c = '\\' then .escaped q else if c = q then .code else .quoted q
  | .escaped q, _ => .quoted q
  | .comment, _ => .comment

/-- Whether a character stands inside a literal.  The quote that closes the literal does not. -/
def Literal.Hides : Literal → Char → Prop
  | .quoted q, c => c = '\\' ∨ c ≠ q
  | .escaped _, _ => True
  | _, _ => False

instance : (s : Literal) → (c : Char) → Decidable (s.Hides c)
  | .code, _ => inferInstanceAs (Decidable False)
  | .quoted q, c => inferInstanceAs (Decidable (c = '\\' ∨ c ≠ q))
  | .escaped _, _ => inferInstanceAs (Decidable True)
  | .comment, _ => inferInstanceAs (Decidable False)

/-- What the mask shows of a character. -/
def Literal.shown (s : Literal) (c : Char) : List Char := if s.Hides c then blankFor c else [c]

lemma mask_of_ends {s : Literal} {cs : List Char} (h : s.Ends cs) : mask s cs = [] := by
  obtain rfl | ⟨rfl, rest, rfl⟩ := h
  · exact mask_comment cs
  · rw [mask]

lemma situationAfter_of_ends {s : Literal} {cs : List Char} (h : s.Ends cs) :
    situationAfter s cs = .comment := by
  obtain rfl | ⟨rfl, rest, rfl⟩ := h
  · cases cs <;> rw [situationAfter]
  · rw [situationAfter]

/-- All that masking does with one character. -/
lemma mask_cons {s : Literal} {c : Char} {cs : List Char} (h : ¬ s.Ends (c :: cs)) :
    mask s (c :: cs) = s.shown c ++ mask (s.next c) cs := by
  cases s with
  | comment => exact absurd (.inl rfl) h
  | code =>
    rw [mask]
    · rfl
    · rintro rest rfl rfl
      exact h (.inr ⟨rfl, rest, rfl⟩)
  | quoted q =>
    rw [mask, Literal.shown, Literal.next]
    by_cases hescape : c = '\\'
    · rw [if_pos hescape, if_pos (.inl hescape), if_pos hescape]
    · by_cases hquote : c = q
      · have hshown : ¬ (Literal.quoted q).Hides c := fun hhides => hhides.elim hescape (· hquote)
        rw [if_neg hescape, if_pos hquote, if_neg hshown, if_neg hescape, if_pos hquote]
        rfl
      · rw [if_neg hescape, if_neg hquote, if_pos (.inr hquote), if_neg hescape, if_neg hquote]
  | escaped q =>
    have hhides : (Literal.escaped q).Hides c := trivial
    rw [mask_escaped_cons, Literal.shown, if_pos hhides]
    rfl

lemma situationAfter_cons {s : Literal} {c : Char} {cs : List Char} (h : ¬ s.Ends (c :: cs)) :
    situationAfter s (c :: cs) = situationAfter (s.next c) cs := by
  cases s with
  | comment => exact absurd (.inl rfl) h
  | code =>
    rw [situationAfter]
    · rfl
    · rintro rest rfl rfl
      exact h (.inr ⟨rfl, rest, rfl⟩)
  | quoted q =>
    rw [situationAfter, Literal.next]
    split_ifs <;> rfl
  | escaped q => exact situationAfter_escaped_cons q c cs

lemma not_ends_code {cs : List Char} (h : ¬ startsComment cs) : ¬ Literal.code.Ends cs :=
  fun hends => hends.elim nofun fun hcode => h hcode.2

lemma Literal.Ends.append {s : Literal} {x : List Char} (h : s.Ends x) (y : List Char) :
    s.Ends (x ++ y) := by
  obtain h | ⟨hs, rest, rfl⟩ := h
  · exact .inl h
  · exact .inr ⟨hs, rest ++ y, rfl⟩

lemma mask_code_cons {c : Char} {cs : List Char} (h : ¬ startsComment (c :: cs)) :
    mask .code (c :: cs) = c :: mask (if isMark c then .quoted c else .code) cs :=
  mask_cons (not_ends_code h)

lemma situationAfter_code_cons {c : Char} {cs : List Char} (h : ¬ startsComment (c :: cs)) :
    situationAfter .code (c :: cs) =
      situationAfter (if isMark c then .quoted c else .code) cs :=
  situationAfter_cons (not_ends_code h)

/-! ## Part by part -/

lemma not_startsComment_append {x y : List Char} (hx : ¬ startsComment x) (hne : x ≠ [])
    (hseam : x.getLast? = some '/' → y.head? ≠ some '/') : ¬ startsComment (x ++ y) := by
  rintro ⟨rest, heq⟩
  match x with
  | [] => exact hne rfl
  | [c] =>
    rw [List.singleton_append, List.cons.injEq] at heq
    exact hseam (heq.1 ▸ rfl) (heq.2 ▸ rfl)
  | c :: d :: ds =>
    rw [List.cons_append, List.cons_append, List.cons.injEq, List.cons.injEq] at heq
    exact hx ⟨ds, by rw [heq.1, heq.2.1]⟩

lemma Literal.not_ends_append {s : Literal} {x y : List Char} (hx : ¬ s.Ends x) (hne : x ≠ [])
    (hseam : x.getLast? = some '/' → y.head? ≠ some '/') : ¬ s.Ends (x ++ y) := by
  rintro (hs | ⟨hs, hcomment⟩)
  · exact hx (.inl hs)
  · have hstart : ¬ startsComment x := fun h => hx (.inr ⟨hs, h⟩)
    exact not_startsComment_append hstart hne hseam hcomment

/-- The last character of a text that goes on is that of the rest. -/
lemma getLast?_of_getLast?_tail {c d : Char} {cs : List Char} (h : cs.getLast? = some d) :
    (c :: cs).getLast? = some d := by
  rw [List.getLast?_cons, h]
  rfl

/-- A line is masked part by part, unless a comment begins in the first part or across the seam. -/
lemma mask_append (s : Literal) (x y : List Char) (hx : situationAfter s x ≠ .comment)
    (hseam : x.getLast? = some '/' → y.head? ≠ some '/') :
    mask s (x ++ y) = mask s x ++ mask (situationAfter s x) y := by
  induction x generalizing s with
  | nil => cases s <;> simp [situationAfter]
  | cons c cs ih =>
    have hends : ¬ s.Ends (c :: cs) := fun h => hx (situationAfter_of_ends h)
    have hall := Literal.not_ends_append hends (List.cons_ne_nil c cs) hseam
    rw [situationAfter_cons hends] at hx ⊢
    rw [List.cons_append] at hall ⊢
    rw [mask_cons hall, mask_cons hends,
      ih _ hx fun hlast => hseam (getLast?_of_getLast?_tail hlast), List.append_assoc]

/-- What stands behind a comment is part of it. -/
lemma mask_append_of_comment (s : Literal) (x y : List Char) (hx : situationAfter s x = .comment) :
    mask s (x ++ y) = mask s x := by
  induction x generalizing s with
  | nil =>
    have hs : s = .comment := by rwa [situationAfter] at hx
    rw [hs, mask_comment, mask_comment]
  | cons c cs ih =>
    by_cases hends : s.Ends (c :: cs)
    · rw [mask_of_ends hends, mask_of_ends (hends.append y)]
    · have hall : ¬ s.Ends (c :: (cs ++ y)) := by
        rintro (hs | ⟨rfl, rest, heq⟩)
        · exact hends (.inl hs)
        · cases cs with
          | nil =>
            rw [situationAfter_cons hends, situationAfter, Literal.next] at hx
            split at hx <;> cases hx
          | cons d ds =>
            rw [List.cons_append, List.cons.injEq, List.cons.injEq] at heq
            exact hends (.inr ⟨rfl, ds, by rw [heq.1, heq.2.1]⟩)
      rw [situationAfter_cons hends] at hx
      rw [List.cons_append, mask_cons hall, mask_cons hends, ih _ hx]

/-- Masking puts in spaces and nothing else. -/
lemma mem_mask {s : Literal} {cs : List Char} {c : Char} (h : c ∈ mask s cs) :
    c = ' ' ∨ c ∈ cs := by
  induction cs generalizing s with
  | nil =>
    rw [mask_nil] at h
    cases h
  | cons d cs ih =>
    by_cases hends : s.Ends (d :: cs)
    · rw [mask_of_ends hends] at h
      cases h
    · rw [mask_cons hends, List.mem_append, Literal.shown] at h
      rcases h with h | h
      · split at h
        · exact .inl (List.eq_of_mem_replicate h)
        · rw [List.mem_singleton] at h
          exact .inr (h ▸ List.mem_cons_self)
      · exact (ih h).imp_right (List.mem_cons_of_mem d)

/-! ## Text that is left as it is -/

/-- Text without quotes and without comment signs. -/
structure Plain (cs : List Char) : Prop where
  isMark_eq_false : ∀ c ∈ cs, isMark c = false
  not_comment : ¬ ['/', '/'] <:+: cs

lemma Plain.of_cons {c : Char} {cs : List Char} (h : Plain (c :: cs)) : Plain cs :=
  ⟨fun d hd => h.isMark_eq_false d (List.mem_cons_of_mem _ hd),
    fun hcs => h.not_comment (hcs.trans (List.suffix_cons c cs).isInfix)⟩

lemma Plain.not_startsComment {cs : List Char} (h : Plain cs) : ¬ startsComment cs := by
  rintro ⟨rest, rfl⟩
  exact h.not_comment ⟨[], rest, rfl⟩

lemma Plain.of_not_mem {cs : List Char} (hmark : ∀ c ∈ cs, isMark c = false) (h : '/' ∉ cs) :
    Plain cs :=
  ⟨hmark, fun hcs => h (hcs.subset List.mem_cons_self)⟩

lemma plain_cons_iff {c : Char} {cs : List Char} :
    Plain (c :: cs) ↔ isMark c = false ∧ ¬ startsComment (c :: cs) ∧ Plain cs := by
  constructor
  · exact fun h => ⟨h.isMark_eq_false c List.mem_cons_self, h.not_startsComment, h.of_cons⟩
  · rintro ⟨hc, hcomment, hcs⟩
    refine ⟨List.forall_mem_cons.2 ⟨hc, hcs.isMark_eq_false⟩, fun hinfix => ?_⟩
    rcases List.infix_cons_iff.1 hinfix with ⟨rest, heq⟩ | hinfix
    · exact hcomment ⟨rest, heq.symm⟩
    · exact hcs.not_comment hinfix

/-- Plain texts make a plain text, unless a comment begins across the seam. -/
lemma Plain.append {x y : List Char} (hx : Plain x) (hy : Plain y)
    (hseam : x.getLast? = some '/' → y.head? ≠ some '/') : Plain (x ++ y) := by
  induction x with
  | nil => exact hy
  | cons c cs ih =>
    have hcs : cs.getLast? = some '/' → y.head? ≠ some '/' := fun hlast =>
      hseam (getLast?_of_getLast?_tail hlast)
    obtain ⟨hc, hcomment, hplain⟩ := plain_cons_iff.1 hx
    exact plain_cons_iff.2 ⟨hc, not_startsComment_append hcomment (List.cons_ne_nil c cs) hseam,
      ih hplain hcs⟩

lemma mask_of_plain {cs : List Char} (h : Plain cs) : mask .code cs = cs := by
  induction cs with
  | nil => rw [mask_nil]
  | cons c cs ih =>
    have hc : isMark c = false := h.isMark_eq_false c List.mem_cons_self
    rw [mask_code_cons h.not_startsComment, hc, if_neg Bool.false_ne_true, ih h.of_cons]

lemma situationAfter_of_plain {cs : List Char} (h : Plain cs) : situationAfter .code cs = .code := by
  induction cs with
  | nil => rfl
  | cons c cs ih =>
    have hc : isMark c = false := h.isMark_eq_false c List.mem_cons_self
    rw [situationAfter_code_cons h.not_startsComment, hc, if_neg Bool.false_ne_true,
      ih h.of_cons]

/-- Plain text in front of a line stays, and the rest is masked by itself. -/
lemma mask_plain_append {x : List Char} (hx : Plain x) (y : List Char)
    (hseam : x.getLast? = some '/' → y.head? ≠ some '/') :
    mask .code (x ++ y) = x ++ mask .code y := by
  have hcode := situationAfter_of_plain hx
  rw [mask_append .code x y (by rw [hcode]; exact Literal.noConfusion) hseam, mask_of_plain hx,
    hcode]

lemma isMark_eq_true_iff {c : Char} :
    isMark c = true ↔ c = '"' ∨ c = '\'' ∨ c = Char.ofNat 0x60 := by
  have hgrave : c.toNat = 0x60 ↔ c = Char.ofNat 0x60 := by
    constructor
    · intro h
      rw [← h, Char.ofNat_toNat]
    · rintro rfl
      rfl
  simp only [isMark, Bool.or_eq_true, beq_iff_eq, hgrave, or_assoc]

/-! ## What a literal shows -/

/-- A literal that runs to the end of a line shows its closing quote at most. -/
lemma mem_mask_literal {q : Char} {cs : List Char} (hq : q ∉ cs) :
    ∀ {s : Literal}, s = .quoted q ∨ s = .escaped q → ∀ c ∈ mask s (cs ++ [q]), c = ' ' ∨ c = q := by
  have hblank : ∀ d c : Char, c ∈ blankFor d → c = ' ' := fun d c hc =>
    List.eq_of_mem_replicate hc
  induction cs with
  | nil =>
    rintro s (rfl | rfl) c hc
    · rw [List.nil_append, mask] at hc
      split at hc
      · rw [mask_nil, List.append_nil] at hc
        exact .inl (hblank q c hc)
      · rw [if_pos rfl, mask_nil, List.mem_singleton] at hc
        exact .inr hc
    · rw [List.nil_append, mask, mask_nil, List.append_nil] at hc
      exact .inl (hblank q c hc)
  | cons d cs ih =>
    rw [List.mem_cons, not_or] at hq
    rintro s (rfl | rfl) c hc
    · rw [List.cons_append, mask, if_neg (Ne.symm hq.1)] at hc
      split at hc
      · rcases List.mem_append.1 hc with hc | hc
        · exact .inl (hblank d c hc)
        · exact ih hq.2 (.inr rfl) c hc
      · rcases List.mem_append.1 hc with hc | hc
        · exact .inl (hblank d c hc)
        · exact ih hq.2 (.inl rfl) c hc
    · rw [List.cons_append, mask] at hc
      rcases List.mem_append.1 hc with hc | hc
      · exact .inl (hblank d c hc)
      · exact ih hq.2 (.inl rfl) c hc

/-! ## Braces -/

/-- Text without braces. -/
def Braceless (cs : List Char) : Prop := ∀ c ∈ cs, c ≠ '{' ∧ c ≠ '}'

instance : DecidablePred Braceless := fun cs => inferInstanceAs (Decidable (∀ c ∈ cs, _))

lemma Braceless.append {x y : List Char} (hx : Braceless x) (hy : Braceless y) :
    Braceless (x ++ y) := fun c hc => (List.mem_append.1 hc).elim (hx c) (hy c)

lemma braceSum_append (x y : List Char) : braceSum (x ++ y) = braceSum x + braceSum y := by
  induction x with
  | nil => simp [braceSum]
  | cons c cs ih => simp [braceSum, ih, Int.add_assoc]

lemma braceSum_of_braceless {cs : List Char} (h : Braceless cs) : braceSum cs = 0 := by
  induction cs with
  | nil => rfl
  | cons c cs ih =>
    have hc := h c List.mem_cons_self
    rw [braceSum, if_neg hc.1, if_neg hc.2, ih fun d hd => h d (List.mem_cons_of_mem _ hd),
      Int.zero_add]

/-- A quoted text after plain text shows no brace, whatever it holds. -/
lemma braceless_mask_quoted {key value : List Char} (hkey : Plain key) (hbraces : Braceless key)
    (hsolidus : key.getLast? ≠ some '/') (hvalue : '"' ∉ value) :
    Braceless (mask .code (key ++ '"' :: (value ++ ['"']))) := by
  rw [mask_plain_append hkey _ fun h => absurd h hsolidus]
  apply hbraces.append
  have hopens : ¬ startsComment ('"' :: (value ++ ['"'])) := by
    rintro ⟨rest, heq⟩
    cases heq
  rw [mask_code_cons hopens, if_pos (by decide)]
  intro c hc
  rcases List.mem_cons.1 hc with rfl | hc
  · exact ⟨by decide, by decide⟩
  · rcases mem_mask_literal hvalue (.inl rfl) c hc with rfl | rfl
    · exact ⟨by decide, by decide⟩
    · exact ⟨by decide, by decide⟩

/-! ## Inert text -/

/-- Text of which masking takes no notice: no quotes, no solidi, no braces. -/
def Inert (cs : List Char) : Prop :=
  ∀ c ∈ cs, isMark c = false ∧ c ≠ '/' ∧ c ≠ '{' ∧ c ≠ '}'

instance : DecidablePred Inert := fun cs => inferInstanceAs (Decidable (∀ c ∈ cs, _))

lemma Inert.plain {cs : List Char} (h : Inert cs) : Plain cs :=
  .of_not_mem (fun c hc => (h c hc).1) fun hmem => (h '/' hmem).2.1 rfl

lemma Inert.braceless {cs : List Char} (h : Inert cs) : Braceless cs :=
  fun c hc => ⟨(h c hc).2.2.1, (h c hc).2.2.2⟩

lemma Inert.getLast?_ne {cs : List Char} (h : Inert cs) : cs.getLast? ≠ some '/' :=
  fun hlast => (h '/' (List.mem_of_getLast? hlast)).2.1 rfl

lemma Inert.head?_ne {cs : List Char} (h : Inert cs) : cs.head? ≠ some '/' :=
  fun hhead => (h '/' (List.mem_of_mem_head? hhead)).2.1 rfl

lemma Inert.append {x y : List Char} (hx : Inert x) (hy : Inert y) : Inert (x ++ y) :=
  fun c hc => (List.mem_append.1 hc).elim (hx c) (hy c)

/-- A class of characters is inert if none of the six characters that count belongs to it. -/
lemma inert_of_forall {p : Char → Bool} {cs : List Char} (h : ∀ c ∈ cs, p c = true)
    (hp : ['"', '\'', Char.ofNat 0x60, '/', '{', '}'].all (fun c => !p c) = true) : Inert cs := by
  intro c hc
  have hpc := h c hc
  simp only [List.all_cons, List.all_nil, Bool.and_true, Bool.and_eq_true, Bool.not_eq_true'] at hp
  obtain ⟨hdouble, hsingle, hgrave, hsolidus, hopen, hclose⟩ := hp
  refine ⟨?_, ?_, ?_, ?_⟩
  · by_contra hmark
    rw [Bool.not_eq_false, isMark_eq_true_iff] at hmark
    rcases hmark with rfl | rfl | rfl
    · rw [hpc] at hdouble
      cases hdouble
    · rw [hpc] at hsingle
      cases hsingle
    · rw [hpc] at hgrave
      cases hgrave
  · rintro rfl
    rw [hpc] at hsolidus
    cases hsolidus
  · rintro rfl
    rw [hpc] at hopen
    cases hopen
  · rintro rfl
    rw [hpc] at hclose
    cases hclose

lemma inert_of_isName {name : List Char} (h : isName name = true) : Inert name := by
  rw [isName, Bool.and_eq_true, List.all_eq_true] at h
  exact inert_of_forall h.2 (by decide +kernel)

end AgentScript.Script
