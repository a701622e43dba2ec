import AgentScript.Json.Print
import AgentScript.Json.Value
import Mathlib.Tactic.Common

/-!
# Strings come back

Every string can be written, and reading what was written gives the string, whatever follows its
closing quote.  A character comes back as itself or as its escape; the only escapes of code units
that are written stand for control characters, so no unit can be taken for half of a pair.
-/

namespace AgentScript.Json

/-! ## Tokens one by one -/

lemma tokens_nil : tokens [] = [] := by rw [tokens]

lemma tokens_space {c : Char} (h : isSpace c = true) (cs : List Char) :
    tokens (c :: cs) = tokens cs := by
  rw [tokens, if_pos h]

/-- A token that is not broken, and then the tokens of the rest. -/
lemma tokens_cons {c : Char} {cs rest : List Char} {token : Token} (hspace : isSpace c = false)
    (htoken : readToken c cs = (token, rest)) (hwhole : ∀ fault, token ≠ .broken fault) :
    tokens (c :: cs) = token :: tokens rest := by
  rw [tokens, if_neg (by rw [hspace]; exact Bool.false_ne_true)]
  split
  next fault _ h =>
    rw [htoken] at h
    exact absurd (congrArg Prod.fst h) (hwhole fault)
  next h =>
    rw [htoken] at h
    obtain ⟨rfl, rfl⟩ := Prod.mk.inj h
    rfl

/-! ## Characters -/

lemma hexValue?_hexDigit : ∀ n < 16, hexValue? (hexDigit n) = some n := by decide

/-- The unit that is read where a character was written. -/
def printedUnit (c : Char) : StringUnit :=
  if c.toNat < 0x20 ∧ c ∉ ['\x08', '\t', '\n', '\x0c', '\r'] then .code c.toNat else .plain c

/-- What was read of a string, with one more unit in front. -/
def prepend (u : StringUnit) (read : StringText × List Char) : StringText × List Char :=
  (⟨u :: read.1.units, read.1.fault⟩, read.2)

lemma readString_escape {e d : Char} (he : e ≠ 'u') (hd : escaped? e = some d) (cs : List Char) :
    readString ('\\' :: e :: cs) = prepend (.plain d) (readString cs) := by
  rw [readString.eq_def]
  simp only [if_neg (by decide : '\\' ≠ '"'), if_neg (by decide : ¬ '\\'.toNat < 0x20), ne_eq,
    not_true_eq_false, if_false, he, not_false_eq_true, if_true, hd]
  rfl

lemma readString_code {n : Nat} (h : n < 256) (cs : List Char) :
    readString ('\\' :: 'u' :: '0' :: '0' :: hexDigit (n / 16) :: hexDigit (n % 16) :: cs) =
      prepend (.code n) (readString cs) := by
  have hunit : hexUnit? '0' '0' (hexDigit (n / 16)) (hexDigit (n % 16)) = some n := by
    rw [hexUnit?, hexValue?_hexDigit _ (by omega), hexValue?_hexDigit _ (by omega)]
    simp [hexValue?]
    omega
  rw [readString.eq_def]
  simp only [if_neg (by decide : '\\' ≠ '"'), if_neg (by decide : ¬ '\\'.toNat < 0x20), ne_eq,
    not_true_eq_false, if_false, hunit]
  rfl

lemma readString_plain {c : Char} (hquote : c ≠ '"') (hsolidus : c ≠ '\\') (hspace : ¬c.toNat < 0x20)
    (cs : List Char) : readString (c :: cs) = prepend (.plain c) (readString cs) := by
  rw [readString.eq_def]
  simp only [if_neg hquote, if_neg hspace, if_pos hsolidus]
  rfl

/-- A character comes back as its unit. -/
lemma readString_printChar (c : Char) (cs : List Char) :
    readString (printChar c ++ cs) = prepend (printedUnit c) (readString cs) := by
  unfold printChar
  split_ifs with h1 h2 h3 h4 h5 h6 h7 h8
  · subst h1
    exact readString_escape (by decide) (by decide) cs
  · subst h2
    exact readString_escape (by decide) (by decide) cs
  · subst h3
    exact readString_escape (by decide) (by decide) cs
  · subst h4
    exact readString_escape (by decide) (by decide) cs
  · subst h5
    exact readString_escape (by decide) (by decide) cs
  · subst h6
    exact readString_escape (by decide) (by decide) cs
  · subst h7
    exact readString_escape (by decide) (by decide) cs
  · have hunit : printedUnit c = .code c.toNat := by
      simp [printedUnit, h3, h4, h5, h6, h7, h8]
    rw [hunit]
    exact readString_code (by omega) cs
  · have hunit : printedUnit c = .plain c := by
      simp [printedUnit, h8]
    rw [hunit]
    exact readString_plain h1 h2 h8 cs

/-! ## Strings -/

/-- The string that is read where a string was written. -/
def printedText (s : String) : StringText := ⟨s.toList.map printedUnit, none⟩

lemma readString_flatMap (cs rest : List Char) :
    readString (cs.flatMap printChar ++ '"' :: rest) = (⟨cs.map printedUnit, none⟩, rest) := by
  induction cs with
  | nil =>
    rw [List.flatMap_nil, List.nil_append, readString.eq_def]
    rfl
  | cons c cs ih =>
    rw [List.flatMap_cons, List.append_assoc, readString_printChar, ih]
    rfl

/-- A string that was written is one token. -/
theorem tokens_printString (s : String) (rest : List Char) :
    tokens (printString s ++ rest) = .string (printedText s) :: tokens rest := by
  have hread : readToken '"' (s.toList.flatMap printChar ++ '"' :: rest) =
      (.string (printedText s), rest) := by
    have hstring := readString_flatMap s.toList rest
    simp only [readToken, hstring]
    rfl
  rw [printString, List.cons_append, List.cons_append, List.append_assoc, List.singleton_append]
  exact tokens_cons (by decide) hread fun _ => nofun

lemma joinUnits_map (cs : List Char) : joinUnits none (cs.map printedUnit) = .ok cs := by
  induction cs with
  | nil => rfl
  | cons c cs ih =>
    rw [List.map_cons, printedUnit]
    split
    next h =>
      have htrailing : isTrailingSurrogate c.toNat = false := by
        rw [isTrailingSurrogate, decide_eq_false (by omega), Bool.false_and]
      have hleading : isLeadingSurrogate c.toNat = false := by
        rw [isLeadingSurrogate, decide_eq_false (by omega), Bool.false_and]
      rw [joinUnits.eq_def]
      simp only [htrailing, hleading, ih, Char.ofNat_toNat]
      rfl
    next =>
      rw [joinUnits.eq_def]
      simp only [ih]
      rfl

/-- A string comes back. -/
theorem value_printedText (s : String) : (printedText s).value = .ok s := by
  rw [StringText.value, printedText, joinUnits_map]
  exact congrArg Except.ok String.ofList_toList

end AgentScript.Json
