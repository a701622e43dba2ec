import AgentScript.Proofs.Script.Situations

/-!
# Masking keeps offsets

Places in a line are counted in bytes, and a place that was found in the line is used in its mask.
This is sound because the mask is the line, byte for byte, but for spaces in place of what its
literals hold, and without its comment (`mask_keeps_offsets`).  What is left of a line may be masked
by itself, where it begins outside of literals and comments.

Where the literals are is said by the grammar of lines, not by masking.  The one fact about masking
that is used for every byte is that it leaves everything in its place: what the mask shows of a
character stands where the character stands (`exists_mask_split`).
-/

namespace AgentScript.Script

/-! ## Bytes -/

/-- The bytes of a text in UTF-8. -/
def bytes (cs : List Char) : List UInt8 := cs.flatMap String.utf8EncodeChar

/-- A place, counted in bytes, where a text can be cut without cutting a character. -/
def IsBoundary (cs : List Char) (n : Nat) : Prop :=
  ∃ before after, cs = before ++ after ∧ (bytes before).length = n

variable {x y before after body : List Char} {q c : Char} {s : Literal}

@[simp]
lemma bytes_append (x y : List Char) : bytes (x ++ y) = bytes x ++ bytes y := List.flatMap_append

lemma bytes_cons (c : Char) (cs : List Char) :
    bytes (c :: cs) = String.utf8EncodeChar c ++ bytes cs :=
  List.flatMap_cons

@[simp]
lemma length_bytes_cons (c : Char) (cs : List Char) :
    (bytes (c :: cs)).length = c.utf8Size + (bytes cs).length := by
  rw [bytes_cons, List.length_append, String.length_utf8EncodeChar]

@[simp]
lemma bytes_nil : bytes [] = [] := rfl

lemma bytes_blankFor (c : Char) : bytes (blankFor c) = List.replicate c.utf8Size 0x20 := by
  rw [bytes, blankFor, List.flatMap_replicate]
  exact List.flatten_replicate_singleton

@[simp]
lemma length_bytes_shown (s : Literal) (c : Char) : (bytes (s.shown c)).length = c.utf8Size := by
  rw [Literal.shown]
  split
  · rw [bytes_blankFor, List.length_replicate]
  · rw [length_bytes_cons, bytes_nil, List.length_nil, Nat.add_zero]

/-! ## The length of a mask -/

lemma length_mask_le (s : Literal) (x : List Char) :
    (bytes (mask s x)).length ≤ (bytes x).length := by
  induction x generalizing s with
  | nil => rw [mask_nil]
  | cons c cs ih =>
    by_cases hends : s.Ends (c :: cs)
    · rw [mask_of_ends hends]
      exact Nat.zero_le _
    · rw [mask_cons hends, bytes_append, List.length_append, length_bytes_shown, length_bytes_cons]
      exact Nat.add_le_add_left (ih _) _

lemma length_mask_eq (h : situationAfter s x ≠ .comment) :
    (bytes (mask s x)).length = (bytes x).length := by
  induction x generalizing s with
  | nil => rw [mask_nil]
  | cons c cs ih =>
    have hends : ¬ s.Ends (c :: cs) := fun hends => h (situationAfter_of_ends hends)
    rw [situationAfter_cons hends] at h
    rw [mask_cons hends, bytes_append, List.length_append, length_bytes_shown, length_bytes_cons,
      ih h]

/-! ## Everything in its place -/

/-- A character in a literal is not in a comment. -/
lemma not_ends_of_hides (h : (situationAfter s before).Hides c) :
    ¬ s.Ends (before ++ c :: after) := by
  rintro (rfl | ⟨rfl, rest, heq⟩)
  · have hcomment : situationAfter .comment before = .comment := by cases before <;> rfl
    rw [hcomment] at h
    exact h
  · match before with
    | [] => exact h
    | [b] =>
      obtain rfl := (List.cons.inj heq).1
      exact h
    | b :: d :: ds =>
      rw [List.cons_append, List.cons_append, List.cons.injEq, List.cons.injEq] at heq
      rw [heq.1, heq.2.1, situationAfter] at h
      exact h

/-- The mask reaches a character: it stands in a literal, or in front of the end of the mask. -/
def Reaches (s : Literal) (before : List Char) (c : Char) (after : List Char) : Prop :=
  (situationAfter s before).Hides c ∨
    (bytes before).length < (bytes (mask s (before ++ c :: after))).length

lemma Reaches.not_ends (h : Reaches s before c after) : ¬ s.Ends (before ++ c :: after) := by
  intro hends
  rcases h with hhides | hlt
  · exact not_ends_of_hides hhides hends
  · rw [mask_of_ends hends] at hlt
    exact Nat.not_lt_zero _ hlt

lemma Reaches.tail {b : Char} (h : Reaches s (b :: before) c after) :
    Reaches (s.next b) before c after := by
  have hends := h.not_ends
  have hshort : ¬ s.Ends (b :: before) := fun hs => hends (hs.append _)
  rw [List.cons_append] at hends
  rw [Reaches, situationAfter_cons hshort, List.cons_append, mask_cons hends, bytes_append,
    List.length_append, length_bytes_shown, length_bytes_cons] at h
  exact h.imp_right Nat.lt_of_add_lt_add_left

/-- What the mask shows of a character that it reaches stands where the character stands. -/
lemma exists_mask_split (h : Reaches s before c after) :
    ∃ front back, mask s (before ++ c :: after) =
        front ++ ((situationAfter s before).shown c ++ back) ∧
      (bytes front).length = (bytes before).length := by
  induction before generalizing s with
  | nil => exact ⟨[], mask (s.next c) after, mask_cons h.not_ends, rfl⟩
  | cons b bs ih =>
    have hends := h.not_ends
    have hshort : ¬ s.Ends (b :: bs) := fun hs => hends (hs.append _)
    rw [List.cons_append] at hends
    obtain ⟨front, back, heq, hlength⟩ := ih h.tail
    refine ⟨s.shown b ++ front, back, ?_, ?_⟩
    · rw [List.cons_append, mask_cons hends, heq, situationAfter_cons hshort, List.append_assoc]
    · rw [bytes_append, List.length_append, length_bytes_shown, length_bytes_cons, hlength]

/-- The bytes of a character within its text. -/
lemma getElem?_bytes_middle {front middle back : List Char} {i : Nat}
    (hlow : (bytes front).length ≤ i) (hhigh : i < (bytes front).length + (bytes middle).length) :
    (bytes (front ++ (middle ++ back)))[i]? = (bytes middle)[i - (bytes front).length]? := by
  rw [bytes_append, bytes_append, List.getElem?_append_right hlow, List.getElem?_append_left]
  omega

/-- Inside a literal there are spaces. -/
lemma getElem?_mask_of_hides (h : (situationAfter s before).Hides c) {i : Nat}
    (hlow : (bytes before).length ≤ i) (hhigh : i < (bytes before).length + c.utf8Size) :
    (bytes (mask s (before ++ c :: after)))[i]? = some 0x20 := by
  have hreaches : Reaches s before c after := .inl h
  obtain ⟨front, back, heq, hlength⟩ := exists_mask_split hreaches
  rw [heq, getElem?_bytes_middle (by omega) (by rw [length_bytes_shown]; omega), Literal.shown,
    if_pos h, bytes_blankFor, List.getElem?_replicate_of_lt (by omega)]

/-- Elsewhere there is the line itself. -/
lemma getElem?_mask_of_not_hides (h : ¬ (situationAfter s before).Hides c) {i : Nat}
    (hlow : (bytes before).length ≤ i) (hhigh : i < (bytes before).length + c.utf8Size)
    (hreach : i < (bytes (mask s (before ++ c :: after))).length) :
    (bytes (mask s (before ++ c :: after)))[i]? = (bytes (before ++ c :: after))[i]? := by
  obtain ⟨front, back, heq, hlength⟩ := exists_mask_split (.inr (Nat.lt_of_le_of_lt hlow hreach))
  have hline : (bytes (before ++ ([c] ++ after)))[i]? =
      (bytes [c])[i - (bytes before).length]? := getElem?_bytes_middle hlow (by simpa using hhigh)
  rw [heq, getElem?_bytes_middle (by omega) (by rw [length_bytes_shown]; omega), Literal.shown,
    if_neg h, ← List.singleton_append (l := after), hline, hlength]

/-- Where the line can be cut, its mask can be cut. -/
lemma isBoundary_mask {line : List Char} {n : Nat} (h : IsBoundary line n)
    (hn : n ≤ (bytes (mask s line)).length) : IsBoundary (mask s line) n := by
  obtain ⟨before, after, rfl, rfl⟩ := h
  rcases Nat.lt_or_eq_of_le hn with hlt | heq
  · cases after with
    | nil =>
      rw [List.append_nil] at hlt
      exact absurd hlt (Nat.not_lt.2 (length_mask_le s before))
    | cons c after =>
      obtain ⟨front, back, heq, hlength⟩ := exists_mask_split (.inr hlt)
      exact ⟨front, _, heq, hlength⟩
  · exact ⟨mask s (before ++ after), [], (List.append_nil _).symm, heq.symm⟩

/-! ## Masking twice -/

/-- The situation in which the spaces are read that stand for a literal's characters. -/
def Literal.unescaped : Literal → Literal
  | .escaped q => .quoted q
  | s => s

/-- Literals are opened by quotes. -/
def Literal.Sound : Literal → Prop
  | .quoted q => isMark q = true
  | .escaped q => isMark q = true
  | _ => True

lemma Literal.Sound.next (h : s.Sound) (c : Char) : (s.next c).Sound := by
  cases s with
  | code =>
    rw [Literal.next]
    split
    next hmark => exact hmark
    next => trivial
  | quoted q =>
    rw [Literal.next]
    split_ifs
    · exact h
    · trivial
    · exact h
  | escaped q => exact h
  | comment => trivial

lemma mask_replicate_space (hmark : isMark q = true) (n : Nat) (cs : List Char) :
    mask (.quoted q) (List.replicate n ' ' ++ cs) =
      List.replicate n ' ' ++ mask (.quoted q) cs := by
  have hspace : ' ' ≠ q := by
    rintro rfl
    cases hmark
  induction n with
  | zero => rfl
  | succ n ih =>
    rw [List.replicate_succ, List.cons_append, mask, if_neg (by decide), if_neg hspace, ih]
    rfl

/-- The mask of a text that begins a comment nowhere begins one nowhere. -/
lemma not_startsComment_mask {cs : List Char} (h : ¬ startsComment (c :: cs)) :
    ¬ startsComment (c :: mask .code cs) := by
  rintro ⟨rest, heq⟩
  obtain ⟨rfl, htail⟩ := List.cons.inj heq
  cases cs with
  | nil => cases htail
  | cons d ds =>
    by_cases hends : Literal.code.Ends (d :: ds)
    · rw [mask_of_ends hends] at htail
      cases htail
    · rw [mask_cons hends] at htail
      exact h ⟨ds, by rw [(List.cons.inj htail).1]⟩

/-- What is shown of a character is shown again. -/
lemma mask_unescaped_shown (hs : s.Sound) {cs : List Char} (hends : ¬ s.Ends (c :: cs)) :
    mask s.unescaped (s.shown c ++ mask (s.next c) cs) =
      s.shown c ++ mask (s.next c).unescaped (mask (s.next c) cs) := by
  cases s with
  | comment => exact absurd (.inl rfl) hends
  | code =>
    have hcomment : ¬ startsComment (c :: cs) := fun h => hends (.inr ⟨rfl, h⟩)
    have hsame : (Literal.code.next c).unescaped = Literal.code.next c := by
      rw [Literal.next]
      split <;> rfl
    have hmask : ¬ startsComment (c :: mask (Literal.code.next c) cs) := by
      rw [Literal.next]
      split
      next hmark => exact not_startsComment_of_isMark hmark
      next hmark => exact not_startsComment_mask hcomment
    rw [hsame]
    exact mask_cons (not_ends_code hmask)
  | quoted q =>
    by_cases hhides : (Literal.quoted q).Hides c
    · have hsame : ((Literal.quoted q).next c).unescaped = .quoted q := by
        rw [Literal.next]
        split_ifs with hescape hquote
        · rfl
        · exact absurd hquote (hhides.resolve_left hescape)
        · rfl
      rw [hsame, Literal.shown, if_pos hhides]
      exact mask_replicate_space hs _ _
    · have hclose : c ≠ '\\' ∧ c = q := by
        rw [Literal.Hides, not_or, not_not] at hhides
        exact hhides
      obtain ⟨hescape, rfl⟩ := hclose
      rw [Literal.shown, if_neg hhides, Literal.next, if_neg hescape, if_pos rfl]
      change mask (.quoted c) (c :: mask .code cs) = c :: mask .code (mask .code cs)
      rw [mask, if_neg hescape, if_pos rfl]
  | escaped q =>
    have hhides : (Literal.escaped q).Hides c := trivial
    rw [Literal.shown, if_pos hhides]
    exact mask_replicate_space hs _ _

lemma mask_unescaped_mask (hs : s.Sound) (cs : List Char) :
    mask s.unescaped (mask s cs) = mask s cs := by
  induction cs generalizing s with
  | nil => rw [mask_nil, mask_nil]
  | cons c cs ih =>
    by_cases hends : s.Ends (c :: cs)
    · rw [mask_of_ends hends, mask_nil]
    · rw [mask_cons hends, mask_unescaped_shown hs hends, ih (hs.next c)]

/-! ## Literals and comments by the grammar -/

/-- Whether a character that follows the given text stands inside a literal: a quote opened the
literal after code and whole literals, and what stands between the quote and the character, with the
character, may stand in a literal. -/
def InLiteral (before : List Char) (c : Char) : Prop :=
  ∃ code q body rest, before = code ++ q :: body ∧ CodeText code ∧ isMark q = true ∧
    LiteralBody q (body ++ c :: rest)

/-- Whether a text ends inside a literal, so that a character behind it may stand inside as well. -/
def EndsInLiteral (x : List Char) : Prop := ∃ c, InLiteral x c

/-- Whether two solidi stand outside of literals. -/
def HasComment (x : List Char) : Prop :=
  ∃ code rest, x = code ++ '/' :: '/' :: rest ∧ CodeText code

lemma hides_of_literalBody {w rest : List Char} (h : LiteralBody q w) (hw : w = body ++ c :: rest) :
    (situationAfter (.quoted q) body).Hides c := by
  induction h generalizing body with
  | nil => cases body <;> cases hw
  | @plain d ds hescape hquote hds ih =>
    cases body with
    | nil =>
      obtain ⟨rfl, -⟩ := List.cons.inj hw
      exact .inr hquote
    | cons b bs =>
      obtain ⟨rfl, hrest⟩ := List.cons.inj hw
      rw [situationAfter, if_neg hescape, if_neg hquote]
      exact ih hrest
  | @escape d ds hds ih =>
    cases body with
    | nil =>
      obtain ⟨rfl, -⟩ := List.cons.inj hw
      exact .inl rfl
    | cons b bs =>
      obtain ⟨rfl, hbehind⟩ := List.cons.inj hw
      rw [situationAfter, if_pos rfl]
      cases bs with
      | nil => trivial
      | cons b' bs =>
        obtain ⟨rfl, hrest⟩ := List.cons.inj hbehind
        rw [situationAfter_escaped_cons]
        exact ih hrest

/-- What is blanked is what stands inside a literal. -/
lemma inLiteral_iff : InLiteral before c ↔ (situationAfter .code before).Hides c := by
  constructor
  · rintro ⟨code, q, body, rest, rfl, hcode, hmark, hbody⟩
    rw [hcode.situationAfter_opened hmark]
    exact hides_of_literalBody hbody rfl
  · intro h
    have hsituated := situationAfter_eq_iff.1 (rfl : situationAfter .code before = _)
    cases hs : situationAfter .code before with
    | code => rw [hs] at h; exact h.elim
    | comment => rw [hs] at h; exact h.elim
    | quoted q =>
      rw [hs] at h hsituated
      obtain ⟨code, body, rfl, hcode, hmark, hbody⟩ := hsituated
      by_cases hescape : c = '\\'
      · subst hescape
        exact ⟨code, q, body, [' '], rfl, hcode, hmark, hbody.append (.escape .nil)⟩
      · exact ⟨code, q, body, [], rfl, hcode, hmark,
          hbody.append (.plain hescape (h.resolve_left hescape) .nil)⟩
    | escaped q =>
      rw [hs] at hsituated
      obtain ⟨code, body, rfl, hcode, hmark, hbody⟩ := hsituated
      refine ⟨code, q, body ++ ['\\'], [], rfl, hcode, hmark, ?_⟩
      rw [List.append_assoc]
      exact hbody.append (.escape .nil)

lemma endsInLiteral_iff : EndsInLiteral x ↔ (situationAfter .code x).Hides '\\' := by
  rw [EndsInLiteral]
  constructor
  · rintro ⟨c, h⟩
    rw [inLiteral_iff] at h
    cases hs : situationAfter .code x with
    | code => rw [hs] at h; exact h.elim
    | comment => rw [hs] at h; exact h.elim
    | quoted q => exact .inl rfl
    | escaped q => trivial
  · exact fun h => ⟨'\\', inLiteral_iff.2 h⟩

lemma hasComment_iff : HasComment x ↔ situationAfter .code x = .comment :=
  (situationAfter_eq_iff (s := .comment)).symm

instance (before : List Char) (c : Char) : Decidable (InLiteral before c) :=
  decidable_of_iff _ inLiteral_iff.symm

instance : DecidablePred EndsInLiteral := fun _ => decidable_of_iff _ endsInLiteral_iff.symm

instance : DecidablePred HasComment := fun _ => decidable_of_iff _ hasComment_iff.symm

lemma situationAfter_eq_code (hends : ¬ EndsInLiteral x) (hcomment : ¬ HasComment x) :
    situationAfter .code x = .code := by
  rw [endsInLiteral_iff] at hends
  rw [hasComment_iff] at hcomment
  cases hs : situationAfter .code x with
  | code => rfl
  | comment => exact absurd hs hcomment
  | quoted q => rw [hs] at hends; exact absurd (.inl rfl) hends
  | escaped q => rw [hs] at hends; exact absurd trivial hends

/-- **Masking keeps offsets and structure.**  A mask is as long as its line, up to a comment; it is
the line outside of literals, and spaces inside them; it can be cut where the line can; it is its own
mask; and a line can be masked in two parts where the first ends neither in a literal nor in a
comment, unless a comment begins across the seam. -/
theorem mask_keeps_offsets :
    (∀ line : List Char,
      (bytes (mask .code line)).length ≤ (bytes line).length ∧
      (¬ HasComment line → (bytes (mask .code line)).length = (bytes line).length) ∧
      (∀ before c after, line = before ++ c :: after →
        ∀ i, (bytes before).length ≤ i → i < (bytes before).length + c.utf8Size →
          (InLiteral before c → (bytes (mask .code line))[i]? = some 0x20) ∧
          (¬ InLiteral before c → i < (bytes (mask .code line)).length →
            (bytes (mask .code line))[i]? = (bytes line)[i]?)) ∧
      (∀ n ≤ (bytes (mask .code line)).length, IsBoundary line n → IsBoundary (mask .code line) n) ∧
      mask .code (mask .code line) = mask .code line) ∧
    ∀ x y : List Char, ¬ EndsInLiteral x → ¬ HasComment x →
      (x.getLast? = some '/' → y.head? ≠ some '/') →
        mask .code (x ++ y) = mask .code x ++ mask .code y ∧
        netBraces (x ++ y) = netBraces x + netBraces y := by
  refine ⟨fun line => ⟨length_mask_le .code line, ?_, ?_, ?_, ?_⟩, ?_⟩
  · intro hcomment
    rw [hasComment_iff] at hcomment
    exact length_mask_eq hcomment
  · rintro before c after rfl i hlow hhigh
    rw [inLiteral_iff]
    exact ⟨fun h => getElem?_mask_of_hides h hlow hhigh,
      fun h hreach => getElem?_mask_of_not_hides h hlow hhigh hreach⟩
  · exact fun n hn h => isBoundary_mask h hn
  · exact mask_unescaped_mask (s := .code) trivial line
  · intro x y hends hcomment hseam
    have hcode := situationAfter_eq_code hends hcomment
    rw [hasComment_iff] at hcomment
    have hmask : mask .code (x ++ y) = mask .code x ++ mask .code y := by
      rw [mask_append .code x y hcomment hseam, hcode]
    refine ⟨hmask, ?_⟩
    rw [netBraces, netBraces, netBraces, hmask, braceSum_append]

/-! ## A line in two parts -/

/-- A literal that holds a character of two bytes, an escaped quote and a brace, and then a brace. -/
def accentedFront : List Char := ['a', ' ', '"', 'é', '\\', '"', '{', '"', ' ', '{']

/-- A brace, and another one in a comment. -/
def commentedBack : List Char := [' ', '}', '/', '/', '}']

theorem mask_keeps_offsets_accentedFront :
    (¬ HasComment accentedFront ∧
        (bytes (mask .code accentedFront)).length = (bytes accentedFront).length) ∧
      (InLiteral ['a', ' ', '"'] 'é' ∧ (bytes (mask .code accentedFront))[4]? = some 0x20) ∧
      (¬ InLiteral (accentedFront.take 7) '"' ∧
        (bytes (mask .code accentedFront))[8]? = (bytes accentedFront)[8]?) ∧
      (IsBoundary accentedFront 5 ∧ IsBoundary (mask .code accentedFront) 5) ∧
      (¬ EndsInLiteral accentedFront ∧ commentedBack.head? ≠ some '/' ∧
        mask .code (accentedFront ++ commentedBack) =
          mask .code accentedFront ++ mask .code commentedBack ∧
        netBraces (accentedFront ++ commentedBack) =
          netBraces accentedFront + netBraces commentedBack) :=
  have hcomment : ¬ HasComment accentedFront := by decide
  have hliteral : InLiteral ['a', ' ', '"'] 'é' := by decide
  have hquote : ¬ InLiteral (accentedFront.take 7) '"' := by decide
  have hboundary : IsBoundary accentedFront 5 :=
    ⟨accentedFront.take 4, accentedFront.drop 4, by decide, by decide⟩
  have hends : ¬ EndsInLiteral accentedFront := by decide
  have hhead : commentedBack.head? ≠ some '/' := by decide
  ⟨⟨hcomment, (mask_keeps_offsets.1 accentedFront).2.1 hcomment⟩,
    ⟨hliteral, ((mask_keeps_offsets.1 accentedFront).2.2.1 _ 'é' (accentedFront.drop 4) (by decide) 4
      (by decide) (by decide)).1 hliteral⟩,
    ⟨hquote, ((mask_keeps_offsets.1 accentedFront).2.2.1 _ '"' (accentedFront.drop 8) (by decide) 8
      (by decide) (by decide)).2 hquote (by decide)⟩,
    ⟨hboundary, (mask_keeps_offsets.1 accentedFront).2.2.2.1 5 (by decide) hboundary⟩,
    hends, hhead, mask_keeps_offsets.2 accentedFront commentedBack hends hcomment fun _ => hhead⟩

end AgentScript.Script
