import AgentScript.Json.Decode
import AgentScript.Proofs.Json.Strings
import Mathlib.Algebra.Group.Nat.Defs
import Mathlib.Data.List.Basic
import Mathlib.Data.List.TakeWhile

/-!
# Numbers come back

A number ends where no character of a number follows, so a text that is one number is the same number
in front of a comma, a bracket or a line break (`tokens_append`).  Natural numbers below
`2 ^ 64` are read as what was written.

Doubles are written with the fewest digits that tell them apart and read in 64-bit steps, which may
miss the nearest double.  What is read back of a double is therefore a value of its own
(`readBack`); whether it is the double that was written is asked of each double.
-/

namespace AgentScript.Json

lemma exists_of_bind_eq_ok {ε α β : Type} {x : Except ε α} {f : α → Except ε β} {b : β}
    (h : x >>= f = .ok b) : ∃ a, x = .ok a ∧ f a = .ok b := by
  cases x with
  | error e => cases h
  | ok a => exact ⟨a, rfl, h⟩

/-! ## Where numbers end -/

/-- A text that no number goes on with. -/
def EndsNumber (more : List Char) : Prop :=
  ∀ c ∈ more.head?, isDigit c = false ∧ c ≠ '.' ∧ c ≠ 'e' ∧ c ≠ 'E'

variable {more cs rest : List Char} {ds : List Nat}

lemma endsNumber_nil : EndsNumber [] := fun c hc => by cases hc

lemma endsNumber_cons {c : Char} (hdigit : isDigit c = false) (hpoint : c ≠ '.') (he : c ≠ 'e')
    (hE : c ≠ 'E') (cs : List Char) : EndsNumber (c :: cs) := by
  intro d hd
  obtain rfl := Option.some.inj hd
  exact ⟨hdigit, hpoint, he, hE⟩

lemma readDigits_of_endsNumber (h : EndsNumber more) : readDigits more = ([], more) := by
  cases more with
  | nil => rfl
  | cons c more => simp [readDigits, (h c rfl).1]

lemma readDigits_append (h : EndsNumber more) (cs : List Char) :
    readDigits (cs ++ more) = ((readDigits cs).1, (readDigits cs).2 ++ more) := by
  induction cs with
  | nil => exact readDigits_of_endsNumber h
  | cons c cs ih =>
    by_cases hc : isDigit c
    · rw [List.cons_append, readDigits_cons hc, readDigits_cons hc, ih]
    · simp [readDigits, hc]

lemma readSomeDigits_append (h : EndsNumber more) (hread : readSomeDigits cs = .ok (ds, rest)) :
    readSomeDigits (cs ++ more) = .ok (ds, rest ++ more) := by
  have hdigits := readSomeDigits_eq_ok hread
  have hne : ds ≠ [] := by
    rintro rfl
    rw [readSomeDigits, hdigits] at hread
    cases hread
  rw [readSomeDigits, readDigits_append h, hdigits]
  cases ds with
  | nil => exact absurd rfl hne
  | cons d ds => rfl

lemma readWhole_append (h : EndsNumber more) (hread : readWhole cs = .ok (ds, rest)) :
    readWhole (cs ++ more) = .ok (ds, rest ++ more) := by
  have hsome : readSomeDigits cs = .ok (ds, rest) := by
    rw [readWhole] at hread
    split at hread
    · cases hread
    · exact hread
  rw [readWhole, hsome] at hread
  rw [readWhole, readSomeDigits_append h hsome]
  split at hread
  · cases hread
  next hlead =>
    split
    next heq =>
      obtain ⟨rfl, -⟩ := Prod.mk.inj (Except.ok.inj heq)
      exact (hlead _ _ _ rfl).elim
    next => rfl

lemma readFraction_append (h : EndsNumber more) (hread : readFraction cs = .ok (ds, rest)) :
    readFraction (cs ++ more) = .ok (ds, rest ++ more) := by
  cases cs with
  | nil =>
    obtain ⟨rfl, rfl⟩ := Prod.mk.inj (Except.ok.inj hread)
    cases more with
    | nil => rfl
    | cons c more => rw [List.nil_append, readFraction, if_neg (h c rfl).2.1]
  | cons c cs =>
    rw [readFraction] at hread
    rw [List.cons_append, readFraction]
    split at hread
    next hpoint =>
      rw [if_pos hpoint]
      exact readSomeDigits_append h hread
    next hpoint =>
      obtain ⟨rfl, rfl⟩ := Prod.mk.inj (Except.ok.inj hread)
      rw [if_neg hpoint]
      rfl

lemma readSign_append (hne : cs ≠ []) :
    readSign (cs ++ more) = ((readSign cs).1, (readSign cs).2 ++ more) := by
  cases cs with
  | nil => exact absurd rfl hne
  | cons c cs =>
    rw [List.cons_append, readSign, readSign]
    split_ifs <;> rfl

lemma readExponent_append (h : EndsNumber more) {e : Option (Bool × List Nat)}
    (hread : readExponent cs = .ok (e, rest)) :
    readExponent (cs ++ more) = .ok (e, rest ++ more) := by
  cases cs with
  | nil =>
    obtain ⟨rfl, rfl⟩ := Prod.mk.inj (Except.ok.inj hread)
    cases more with
    | nil => rfl
    | cons c more =>
      have hc : ¬(c = 'e' ∨ c = 'E') := fun hc => hc.elim (h c rfl).2.2.1 (h c rfl).2.2.2
      rw [List.nil_append, readExponent, if_neg hc]
  | cons c cs =>
    rw [readExponent] at hread
    rw [List.cons_append, readExponent]
    split at hread
    next hc =>
      rw [if_pos hc]
      have hne : cs ≠ [] := by
        rintro rfl
        cases hread
      rw [readSign_append hne]
      obtain ⟨⟨digits, left⟩, hdigits, hread⟩ := exists_of_bind_eq_ok hread
      obtain ⟨rfl, rfl⟩ := Prod.mk.inj (Except.ok.inj hread)
      rw [readSomeDigits_append h hdigits]
      rfl
    next hc =>
      obtain ⟨rfl, rfl⟩ := Prod.mk.inj (Except.ok.inj hread)
      rw [if_neg hc]
      rfl

lemma readUnsigned_append (h : EndsNumber more) {negative : Bool} {t : NumberText}
    (hread : readUnsigned negative cs = .ok (t, rest)) :
    readUnsigned negative (cs ++ more) = .ok (t, rest ++ more) := by
  obtain ⟨⟨whole, cs'⟩, hwhole, hread⟩ := exists_of_bind_eq_ok hread
  obtain ⟨⟨fraction, cs''⟩, hfraction, hread⟩ := exists_of_bind_eq_ok hread
  obtain ⟨⟨exponent, left⟩, hexponent, hread⟩ := exists_of_bind_eq_ok hread
  obtain ⟨rfl, rfl⟩ := Prod.mk.inj (Except.ok.inj hread)
  rw [readUnsigned, readWhole_append h hwhole]
  dsimp only [bind, Except.bind]
  rw [readFraction_append h hfraction]
  dsimp only
  rw [readExponent_append h hexponent]
  rfl

/-! ## Texts that are numbers -/

/-- The number that a text is, if it is one from end to end. -/
def numberText? : List Char → Option NumberText
  | [] => none
  | c :: cs =>
    match if c = '-' then readUnsigned true cs else readUnsigned false (c :: cs) with
    | .ok (t, []) => some t
    | _ => none

lemma isDigit_of_readUnsigned {negative : Bool} {c : Char} {t : NumberText}
    (h : readUnsigned negative (c :: cs) = .ok (t, rest)) : isDigit c = true := by
  obtain ⟨⟨whole, cs'⟩, hwhole, -⟩ := exists_of_bind_eq_ok h
  by_contra hc
  rw [Bool.not_eq_true] at hc
  simp [readWhole, readSomeDigits, readDigits, hc] at hwhole

lemma ne_of_isDigit {c : Char} (h : isDigit c = true) {ds : List Char}
    (hds : ds.any isDigit = false) : ∀ d ∈ ds, c ≠ d := by
  rintro d hd rfl
  exact List.any_eq_false.1 hds c hd h

lemma readToken_of_isDigit {c : Char} (h : isDigit c = true) (cs : List Char) :
    readToken c cs = readNumber false (c :: cs) := by
  have hnot : ['[', ']', '{', '}', ',', ':', 'n', 't', 'f', '"', '-'].any isDigit = false := by
    decide
  have hne := ne_of_isDigit h hnot
  simp only [List.forall_mem_cons] at hne
  simp only [readToken, hne, if_false, h, if_true]

lemma isSpace_of_isDigit {c : Char} (h : isDigit c = true) : isSpace c = false := by
  have hnot : [' ', '\n', '\t', '\r'].any isDigit = false := by decide
  have hne := ne_of_isDigit h hnot
  simp only [List.forall_mem_cons] at hne
  simp [isSpace, hne]

/-- A text that is a number is one token, where no number goes on. -/
theorem tokens_number {t : NumberText} (hcs : numberText? cs = some t) (h : EndsNumber more) :
    tokens (cs ++ more) = .number t :: tokens more := by
  cases cs with
  | nil => cases hcs
  | cons c cs =>
    rw [numberText?] at hcs
    split at hcs
    next t' hread =>
      obtain rfl := Option.some.inj hcs
      split at hread
      next hminus =>
        subst hminus
        have htoken : readToken '-' (cs ++ more) = (.number t', more) := by
          have hnumber : readToken '-' (cs ++ more) = readNumber true (cs ++ more) := rfl
          rw [hnumber, readNumber, readUnsigned_append h hread]
          rfl
        exact tokens_cons (by decide) htoken fun _ => nofun
      next =>
        have hdigit := isDigit_of_readUnsigned hread
        have htoken : readToken c (cs ++ more) = (.number t', more) := by
          rw [readToken_of_isDigit hdigit, ← List.cons_append, readNumber,
            readUnsigned_append h hread]
          rfl
        exact tokens_cons (isSpace_of_isDigit hdigit) htoken fun _ => nofun
    next => cases hcs

/-! ## Doubles -/

/-- The double that is read where a double was written. -/
def readBack (x : Float) : Option Float := do
  let t ← numberText? (printNumber (.real x))
  let n ← t.value.toOption
  return n.toFloat

/-! ## Natural numbers -/

/-- The digits of a natural number. -/
def decimal (n : Nat) : List Nat := (Nat.toDigits 10 n).map digitValue

lemma isDigit_of_mem_toDigits {n : Nat} : ∀ c ∈ Nat.toDigits 10 n, isDigit c = true := by
  intro c hc
  have hdigit := Nat.isDigit_of_mem_toDigits (by decide) (by decide) hc
  simpa [Char.isDigit, isDigit, Char.le_def] using hdigit

lemma readDigits_toDigits (n : Nat) : readDigits (Nat.toDigits 10 n) = (decimal n, []) := by
  rw [readDigits, List.takeWhile_eq_self_iff.2 isDigit_of_mem_toDigits,
    List.dropWhile_eq_nil_iff.2 isDigit_of_mem_toDigits, decimal]

lemma digitValue_digitChar : ∀ n < 10, digitValue (Nat.digitChar n) = n := by decide

/-- A natural number but zero does not begin with a zero. -/
lemma head?_decimal {n : Nat} (h : 0 < n) : (decimal n).head? ≠ some 0 := by
  induction n using Nat.strongRecOn with
  | ind n ih =>
    rw [decimal, Nat.toDigits_eq_if (by decide)]
    split
    next hlt =>
      rw [List.map_singleton, digitValue_digitChar n hlt, List.head?_cons, ne_eq, Option.some.injEq]
      omega
    next hge =>
      have hne : (Nat.toDigits 10 (n / 10)).map digitValue ≠ [] := by
        rw [ne_eq, List.map_eq_nil_iff]
        exact Nat.toDigits_ne_nil
      rw [List.map_append, List.head?_append_of_ne_nil _ hne]
      exact ih (n / 10) (by omega) (by omega)

/-- A natural number is read as its digits. -/
theorem numberText?_natural (n : Nat) :
    numberText? (printNumber (.integer n)) = some ⟨false, decimal n, [], none⟩ := by
  have hprint : printNumber (.integer n) = Nat.toDigits 10 n := by
    change (toString (Int.ofNat n)).toList = _
    rw [Int.toString_eq_repr, Int.repr]
    exact Nat.toList_repr
  have hsome : readSomeDigits (Nat.toDigits 10 n) = .ok (decimal n, []) := by
    rw [readSomeDigits, readDigits_toDigits]
    cases hdecimal : decimal n with
    | nil => exact absurd (List.map_eq_nil_iff.1 hdecimal) Nat.toDigits_ne_nil
    | cons d ds => rfl
  have hwhole : readWhole (Nat.toDigits 10 n) = .ok (decimal n, []) := by
    rw [readWhole, hsome]
    split
    next heq =>
      obtain ⟨hdecimal, -⟩ := Prod.mk.inj (Except.ok.inj heq)
      rcases Nat.eq_zero_or_pos n with rfl | hpos
      · cases hdecimal
      · exact absurd (congrArg List.head? hdecimal) (head?_decimal hpos)
    next => rfl
  have hread : readUnsigned false (Nat.toDigits 10 n) = .ok (⟨false, decimal n, [], none⟩, []) := by
    rw [readUnsigned, hwhole]
    rfl
  rw [hprint]
  cases hdigits : Nat.toDigits 10 n with
  | nil => exact absurd hdigits Nat.toDigits_ne_nil
  | cons c cs =>
    have hminus : c ≠ '-' := by
      rintro rfl
      have hdigit := isDigit_of_mem_toDigits (n := n) '-' (hdigits ▸ List.mem_cons_self)
      revert hdigit
      decide
    rw [numberText?, if_neg hminus, ← hdigits, hread]

lemma le_foldl_digits (ds : List Nat) (m : Nat) :
    m ≤ ds.foldl (fun n d => n * 10 + d) m := by
  induction ds generalizing m with
  | nil => exact Nat.le_refl m
  | cons d ds ih => exact Nat.le_trans (by omega) (ih (m * 10 + d))

lemma gatherWhole_eq (ds : List Nat) (m : Nat)
    (h : ds.foldl (fun n d => n * 10 + d) m < NumberText.significandBound) :
    NumberText.gatherWhole ⟨m, 0⟩ ds = ⟨ds.foldl (fun n d => n * 10 + d) m, 0⟩ := by
  induction ds generalizing m with
  | nil => rfl
  | cons d ds ih =>
    have hnext := Nat.lt_of_le_of_lt (le_foldl_digits ds (m * 10 + d)) h
    rw [NumberText.gatherWhole, if_pos hnext]
    exact ih (m * 10 + d) h

lemma foldl_decimal (n : Nat) : (decimal n).foldl (fun n d => n * 10 + d) 0 = n := by
  have hvalue : Nat.ofDigitChars 10 (Nat.toDigits 10 n) 0 = n := Nat.ofDigitChars_ten_toDigits
  rw [Nat.ofDigitChars_eq_foldl] at hvalue
  rw [decimal, List.foldl_map]
  refine Eq.trans ?_ hvalue
  refine congrArg (List.foldl · 0 _) (funext fun m => funext fun c => ?_)
  rw [digitValue, Nat.mul_comm]

/-- A natural number of 64 bits comes back. -/
theorem value_natural {n : Nat} (h : n < 2 ^ 64) :
    NumberText.value ⟨false, decimal n, [], none⟩ = .ok (.integer n) := by
  have hgather : NumberText.gatherWhole ⟨0, 0⟩ (decimal n) = ⟨n, 0⟩ := by
    have hbound : (decimal n).foldl (fun n d => n * 10 + d) 0 < NumberText.significandBound := by
      rw [foldl_decimal]
      exact h
    rw [gatherWhole_eq _ _ hbound, foldl_decimal]
  rw [NumberText.value]
  dsimp only
  rw [hgather]
  rfl

end AgentScript.Json
