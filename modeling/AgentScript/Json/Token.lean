import AgentScript.Json.Number

/-!
# Tokens of a JSON text

A text is cut into brackets, commas, colons, keywords, numbers and strings, from left to right and
without regard to their order.  The cut ends at the first place where no token begins, with a token
that is *broken*.

A string keeps its `\u` escapes as code units: whether they pair up is only asked of a string
whose value somebody wants, and not of one that is passed over.  A string whose end was not reached
keeps what was read, because its first unpaired unit comes before its missing end.
-/

namespace AgentScript.Json

/-- A character of a string, or a code unit written as an escape. -/
inductive StringUnit where
  | plain (c : Char)
  | code (n : Nat)
  deriving DecidableEq, Repr, Inhabited

/-- A string as it is written, up to its closing quote or up to a fault. -/
structure StringText where
  units : List StringUnit
  fault : Option Fault
  deriving DecidableEq, Repr, Inhabited

inductive Token where
  | openArray
  | closeArray
  | openObject
  | closeObject
  | comma
  | colon
  | null
  | bool (value : Bool)
  | number (text : NumberText)
  | string (text : StringText)
  /-- No token begins here. -/
  | broken (fault : Fault)
  deriving DecidableEq, Repr, Inhabited

/-- The four characters that may stand between tokens. -/
def isSpace (c : Char) : Bool := c == ' ' || c == '\n' || c == '\t' || c == '\r'

/-! ## Strings -/

/-- The value of a hexadecimal digit. -/
def hexValue? (c : Char) : Option Nat :=
  if '0' ≤ c ∧ c ≤ '9' then some (c.toNat - '0'.toNat)
  else if 'a' ≤ c ∧ c ≤ 'f' then some (c.toNat - 'a'.toNat + 10)
  else if 'A' ≤ c ∧ c ≤ 'F' then some (c.toNat - 'A'.toNat + 10)
  else none

/-- The code unit that four hexadecimal digits write. -/
def hexUnit? (a b c d : Char) : Option Nat := do
  return (((← hexValue? a) * 16 + (← hexValue? b)) * 16 + (← hexValue? c)) * 16 + (← hexValue? d)

/-- The character that a one-letter escape stands for. -/
def escaped? (c : Char) : Option Char :=
  if c = '"' then some '"'
  else if c = '\\' then some '\\'
  else if c = '/' then some '/'
  else if c = 'b' then some '\x08'
  else if c = 'f' then some '\x0c'
  else if c = 'n' then some '\n'
  else if c = 'r' then some '\r'
  else if c = 't' then some '\t'
  else none

/-- The number of bytes of a text. -/
def byteCount : List Char → Nat
  | [] => 0
  | c :: cs => c.utf8Size + byteCount cs

/-- Why no code unit follows `\u`: either fewer than four bytes are left, or they are no digits. -/
def hexFault (cs : List Char) : Fault :=
  if byteCount cs < 4 then .unfinished .string else .malformed .invalidEscape

/-- The string whose opening quote was read, and what follows its closing quote. -/
def readString : List Char → StringText × List Char
  | [] => (⟨[], some (.unfinished .string)⟩, [])
  | c :: cs =>
    if c = '"' then (⟨[], none⟩, cs)
    else if c.toNat < 0x20 then (⟨[], some (.malformed .controlCharacter)⟩, [])
    else if c ≠ '\\' then
      let (text, rest) := readString cs
      (⟨.plain c :: text.units, text.fault⟩, rest)
    else
      match cs with
      | [] => (⟨[], some (.unfinished .string)⟩, [])
      | e :: es =>
        if e ≠ 'u' then
          match escaped? e with
          | some d =>
            let (text, rest) := readString es
            (⟨.plain d :: text.units, text.fault⟩, rest)
          | none => (⟨[], some (.malformed .invalidEscape)⟩, [])
        else
          match es with
          | h₁ :: h₂ :: h₃ :: h₄ :: tail =>
            match hexUnit? h₁ h₂ h₃ h₄ with
            | some n =>
              let (text, rest) := readString tail
              (⟨.code n :: text.units, text.fault⟩, rest)
            | none => (⟨[], some (.malformed .invalidEscape)⟩, [])
          | short => (⟨[], some (hexFault short)⟩, [])

/-! ## Numbers -/

def isDigit (c : Char) : Bool := '0' ≤ c && c ≤ '9'

def digitValue (c : Char) : Nat := c.toNat - '0'.toNat

/-- The digits at the front of a text, and the rest. -/
def readDigits (cs : List Char) : List Nat × List Char :=
  ((cs.takeWhile isDigit).map digitValue, cs.dropWhile isDigit)

/-- What a number breaks off with when a digit is missing before the given rest. -/
def digitMissing : List Char → Token
  | [] => .broken (.unfinished .number)
  | _ :: _ => .broken (.malformed .invalidNumber)

/-- Whether the sign at the front of a text is a minus, and the rest. -/
def readSign : List Char → Bool × List Char
  | [] => (false, [])
  | c :: cs => if c = '-' then (true, cs) else if c = '+' then (false, cs) else (false, c :: cs)

/-- At least one digit at the front of a text, and the rest. -/
def readSomeDigits (cs : List Char) : Except Token (List Nat × List Char) :=
  match readDigits cs with
  | ([], rest) => .error (digitMissing rest)
  | (digits, rest) => .ok (digits, rest)

/-- The exponent at the front of a text, if there is one, and the rest. -/
def readExponent : List Char → Except Token (Option (Bool × List Nat) × List Char)
  | [] => .ok (none, [])
  | c :: cs =>
    if c = 'e' ∨ c = 'E' then do
      let (digits, rest) ← readSomeDigits (readSign cs).2
      return (some ((readSign cs).1, digits), rest)
    else .ok (none, c :: cs)

/-- The fraction at the front of a text, if there is one, and the rest. -/
def readFraction : List Char → Except Token (List Nat × List Char)
  | [] => .ok ([], [])
  | c :: cs =>
    if c = '.' then readSomeDigits cs else .ok ([], c :: cs)

/-- The integer part at the front of a text, and the rest.  A zero stands alone. -/
def readWhole (cs : List Char) : Except Token (List Nat × List Char) :=
  match readSomeDigits cs with
  | .ok (0 :: _ :: _, _) => .error (.broken (.malformed .invalidNumber))
  | found => found

/-- The number at the front of a text whose sign was read, and the rest. -/
def readUnsigned (negative : Bool) (cs : List Char) : Except Token (NumberText × List Char) := do
  let (whole, cs) ← readWhole cs
  let (fraction, cs) ← readFraction cs
  let (exponent, cs) ← readExponent cs
  return (⟨negative, whole, fraction, exponent⟩, cs)

/-- A number as a token, and the rest. -/
def readNumber (negative : Bool) (cs : List Char) : Token × List Char :=
  match readUnsigned negative cs with
  | .ok (text, rest) => (.number text, rest)
  | .error token => (token, [])

/-! ## Tokens -/

/-- A keyword whose first letter was read: the given letters must follow. -/
def readKeyword (token : Token) : List Char → List Char → Token × List Char
  | [], rest => (token, rest)
  | _ :: _, [] => (.broken (.unfinished .keyword), [])
  | l :: ls, c :: cs =>
    if c = l then readKeyword token ls cs else (.broken (.malformed .expectedKeyword), [])

/-- The token that begins with the given character, and the rest. -/
def readToken (c : Char) (cs : List Char) : Token × List Char :=
  if c = '[' then (.openArray, cs)
  else if c = ']' then (.closeArray, cs)
  else if c = '{' then (.openObject, cs)
  else if c = '}' then (.closeObject, cs)
  else if c = ',' then (.comma, cs)
  else if c = ':' then (.colon, cs)
  else if c = 'n' then readKeyword .null ['u', 'l', 'l'] cs
  else if c = 't' then readKeyword (.bool true) ['r', 'u', 'e'] cs
  else if c = 'f' then readKeyword (.bool false) ['a', 'l', 's', 'e'] cs
  else if c = '"' then
    let (text, rest) := readString cs
    (.string text, rest)
  else if c = '-' then readNumber true cs
  else if isDigit c then readNumber false (c :: cs)
  else (.broken (.malformed .expectedValue), [])

/-! ## A token is shorter than its text -/

theorem length_readString_le (cs : List Char) : (readString cs).2.length ≤ cs.length := by
  fun_induction readString cs <;> simp_all <;> omega

theorem length_readKeyword_le (token : Token) (ls cs : List Char) :
    (readKeyword token ls cs).2.length ≤ cs.length := by
  fun_induction readKeyword token ls cs with
  | case1 => exact Nat.le_refl _
  | case2 => exact Nat.zero_le _
  | case3 c ls cs ih => exact Nat.le_succ_of_le ih
  | case4 => exact Nat.zero_le _

theorem length_readDigits_le (cs : List Char) : (readDigits cs).2.length ≤ cs.length :=
  (List.dropWhile_sublist _).length_le

theorem readDigits_cons {c : Char} (h : isDigit c = true) (cs : List Char) :
    readDigits (c :: cs) = (digitValue c :: (readDigits cs).1, (readDigits cs).2) := by
  simp [readDigits, h]

theorem length_readSign_le (cs : List Char) : (readSign cs).2.length ≤ cs.length := by
  fun_cases readSign cs <;> simp

theorem readSomeDigits_eq_ok {cs rest : List Char} {ds : List Nat}
    (h : readSomeDigits cs = .ok (ds, rest)) : readDigits cs = (ds, rest) := by
  simp only [readSomeDigits] at h
  split at h <;> simp_all

theorem length_of_readWhole {cs rest : List Char} {ds : List Nat}
    (h : readWhole cs = .ok (ds, rest)) : rest.length < cs.length := by
  have h : readSomeDigits cs = .ok (ds, rest) := by
    simp only [readWhole] at h
    split at h <;> simp_all
  have hd := readSomeDigits_eq_ok h
  cases cs with
  | nil => simp [readSomeDigits, readDigits] at h
  | cons c cs =>
    by_cases hc : isDigit c
    · rw [readDigits_cons hc, Prod.mk.injEq] at hd
      have := length_readDigits_le cs
      simp only [← hd.2, List.length_cons]
      omega
    · simp [readSomeDigits, readDigits, hc] at h

theorem length_of_readFraction {cs rest : List Char} {ds : List Nat}
    (h : readFraction cs = .ok (ds, rest)) : rest.length ≤ cs.length := by
  cases cs with
  | nil => simp only [readFraction, Except.ok.injEq, Prod.mk.injEq] at h; simp [← h.2]
  | cons c cs =>
    simp only [readFraction] at h
    split at h
    · have hd := length_readDigits_le cs
      rw [readSomeDigits_eq_ok h] at hd
      simp only [List.length_cons] at hd ⊢
      omega
    · simp only [Except.ok.injEq, Prod.mk.injEq] at h
      simp [← h.2]

theorem length_of_readExponent {cs rest : List Char} {e : Option (Bool × List Nat)}
    (h : readExponent cs = .ok (e, rest)) : rest.length ≤ cs.length := by
  cases cs with
  | nil => simp only [readExponent, Except.ok.injEq, Prod.mk.injEq] at h; simp [← h.2]
  | cons c cs =>
    simp only [readExponent] at h
    split at h
    · cases hs : readSomeDigits (readSign cs).2 with
      | error t => simp [hs, bind, Except.bind] at h
      | ok found =>
        simp only [hs, bind, Except.bind, pure, Except.pure, Except.ok.injEq, Prod.mk.injEq] at h
        have hd := length_readDigits_le (readSign cs).2
        rw [readSomeDigits_eq_ok hs, h.2] at hd
        have := length_readSign_le cs
        simp only [List.length_cons]
        omega
    · simp only [Except.ok.injEq, Prod.mk.injEq] at h
      simp [← h.2]

theorem length_of_readUnsigned {negative : Bool} {cs rest : List Char} {t : NumberText}
    (h : readUnsigned negative cs = .ok (t, rest)) : rest.length < cs.length := by
  simp only [readUnsigned] at h
  cases hw : readWhole cs with
  | error t => simp [hw, bind, Except.bind] at h
  | ok whole =>
    simp only [hw, bind, Except.bind] at h
    have h₁ := length_of_readWhole hw
    cases hf : readFraction whole.2 with
    | error t => simp [hf] at h
    | ok fraction =>
      simp only [hf] at h
      have h₂ := length_of_readFraction hf
      cases he : readExponent fraction.2 with
      | error t => simp [he] at h
      | ok exponent =>
        simp only [he, pure, Except.pure, Except.ok.injEq, Prod.mk.injEq] at h
        have h₃ := length_of_readExponent he
        rw [h.2] at h₃
        omega

/-- What is left of a number is nothing if it is broken, and shorter than its text otherwise. -/
theorem length_readNumber (negative : Bool) (cs : List Char) :
    (readNumber negative cs).2.length = 0 ∨ (readNumber negative cs).2.length < cs.length := by
  simp only [readNumber]
  split
  · exact .inr (length_of_readUnsigned ‹_›)
  · exact .inl rfl

theorem length_readToken_le (c : Char) (cs : List Char) :
    (readToken c cs).2.length ≤ cs.length := by
  have hs := length_readString_le cs
  have hm := length_readNumber true cs
  have hn := length_readNumber false (c :: cs)
  simp only [List.length_cons] at hn
  fun_cases readToken c cs <;> first
    | exact Nat.le_refl _
    | exact length_readKeyword_le _ _ _
    | exact Nat.zero_le _
    | omega
    | simp_all

/-- The tokens of a text, up to and including the first broken one. -/
def tokens : List Char → List Token
  | [] => []
  | c :: cs =>
    if isSpace c then tokens cs
    else
      match _h : readToken c cs with
      | (.broken fault, _) => [.broken fault]
      | (token, rest) => token :: tokens rest
termination_by cs => cs.length
decreasing_by
  · exact Nat.lt_succ_self _
  · have h := length_readToken_le c cs
    rw [_h] at h
    exact Nat.lt_succ_of_le h

end AgentScript.Json
