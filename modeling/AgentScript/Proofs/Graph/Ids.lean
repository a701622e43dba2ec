import AgentScript.Graph.Layout
import AgentScript.Proofs.Text.Splitting

/-!
# The ids of a layout are told apart

The layout asks for ids that are put together with hyphens: a word for the kind of node, and one or
two names.  Where an id was asked for before, a hyphen and the number of the occurrence follow.  No
name holds a hyphen, so an id comes apart into its parts again, and the word for the kind tells how
many of them are names.  What is left can only be a number (`numbered_injective`): a tool `t-2` does
not exist, and the second tool `t` is in nobody's way.
-/

namespace AgentScript

namespace Layout

open Text

/-- The id under its number, the first one without. -/
def numbered (id : String) : Nat → String
  | 0 => id
  | n + 1 => id ++ "-" ++ toString (n + 2)

lemma idFor_eq_numbered (asked : List String) (id : String) :
    idFor asked id = numbered id (asked.count id) := by
  rw [idFor]
  cases asked.count id <;> rfl

/-- The words for the kinds of node, and how many names follow each. -/
def idShapes : List (List Char × Nat) :=
  [("agent".toList, 1), ("tool".toList, 2), ("event".toList, 2), ("state".toList, 1),
    ("type".toList, 1)]

/-- An id as the layout asks for it. -/
def IsAsked (id : String) : Prop :=
  ∃ kind names, id.toList = ['-'].intercalate (kind :: names) ∧ (kind, names.length) ∈ idShapes ∧
    ∀ name ∈ names, '-' ∉ name

/-! ## Parts -/

lemma intercalate_append {parts parts' : List (List Char)} (h : parts ≠ []) (h' : parts' ≠ []) :
    ['-'].intercalate (parts ++ parts') =
      ['-'].intercalate parts ++ '-' :: ['-'].intercalate parts' := by
  induction parts with
  | nil => exact absurd rfl h
  | cons first parts ih =>
    cases parts with
    | nil =>
      obtain ⟨last, parts', rfl⟩ := List.exists_cons_of_ne_nil h'
      simp
    | cons second parts =>
      have hrest := ih (List.cons_ne_nil second parts)
      rw [List.cons_append, List.cons_append, List.intercalate_cons_cons, ← List.cons_append,
        hrest, List.intercalate_cons_cons, List.append_assoc, List.append_assoc, List.append_assoc]

/-- The part that the number of an occurrence adds to an id. -/
def numberPart : Nat → List (List Char)
  | 0 => []
  | n + 1 => [(toString (n + 2)).toList]

lemma toList_numbered {id : String} {parts : List (List Char)} (hne : parts ≠ [])
    (h : id.toList = ['-'].intercalate parts) (n : Nat) :
    (numbered id n).toList = ['-'].intercalate (parts ++ numberPart n) := by
  cases n with
  | zero => rw [numbered, numberPart, List.append_nil, h]
  | succ n =>
    rw [numbered, numberPart, intercalate_append hne (List.cons_ne_nil _ _), ← h]
    simp

lemma hyphen_not_mem_numberPart (n : Nat) : ∀ part ∈ numberPart n, '-' ∉ part := by
  intro part hpart hmem
  cases n with
  | zero => cases hpart
  | succ n =>
    rw [numberPart, List.mem_singleton] at hpart
    rw [hpart, Nat.toString_eq_repr, Nat.toList_repr] at hmem
    have hdigit := Nat.isDigit_of_mem_toDigits (by decide) (by decide) hmem
    revert hdigit
    decide

lemma numberPart_injective {m n : Nat} (h : numberPart m = numberPart n) : m = n := by
  cases m with
  | zero =>
    cases n with
    | zero => rfl
    | succ n => cases h
  | succ m =>
    cases n with
    | zero => cases h
    | succ n =>
      rw [numberPart, numberPart, List.cons.injEq, Nat.toString_eq_repr, Nat.toString_eq_repr,
        Nat.toList_repr, Nat.toList_repr] at h
      have hvalue := congrArg (Nat.ofDigitChars 10 · 0) h.1
      rw [Nat.ofDigitChars_ten_toDigits, Nat.ofDigitChars_ten_toDigits] at hvalue
      omega

/-- Numbered ids are told apart by what was asked for and by the number. -/
theorem numbered_injective {a b : String} (ha : IsAsked a) (hb : IsAsked b) {m n : Nat}
    (h : numbered a m = numbered b n) : a = b ∧ m = n := by
  obtain ⟨kind, names, hlist, hshape, hnames⟩ := ha
  obtain ⟨kind', names', hlist', hshape', hnames'⟩ := hb
  have hkinds : ∀ shape ∈ idShapes, '-' ∉ shape.1 := by decide
  have harity : ∀ shape ∈ idShapes, ∀ shape' ∈ idShapes, shape.1 = shape'.1 →
      shape.2 = shape'.2 := by decide
  have hparts : ∀ part ∈ kind :: names ++ numberPart m, '-' ∉ part := by
    intro part hpart
    rcases List.mem_append.1 hpart with hpart | hpart
    · rcases List.mem_cons.1 hpart with rfl | hpart
      · exact hkinds _ hshape
      · exact hnames part hpart
    · exact hyphen_not_mem_numberPart m part hpart
  have hparts' : ∀ part ∈ kind' :: names' ++ numberPart n, '-' ∉ part := by
    intro part hpart
    rcases List.mem_append.1 hpart with hpart | hpart
    · rcases List.mem_cons.1 hpart with rfl | hpart
      · exact hkinds _ hshape'
      · exact hnames' part hpart
    · exact hyphen_not_mem_numberPart n part hpart
  -- Both ids come apart into the same parts.
  have htext := congrArg (fun id => (String.toList id).splitOn '-') h
  rw [toList_numbered (List.cons_ne_nil _ _) hlist, toList_numbered (List.cons_ne_nil _ _) hlist',
    List.splitOn_intercalate '-' hparts (by simp), List.splitOn_intercalate '-' hparts' (by simp),
    List.cons_append, List.cons_append, List.cons.injEq] at htext
  have hlength : names.length = names'.length := harity _ hshape _ hshape' htext.1
  obtain ⟨hsame, hnumber⟩ := List.append_inj htext.2 hlength
  refine ⟨?_, numberPart_injective hnumber⟩
  rw [← String.toList_inj, hlist, hlist', htext.1, hsame]

lemma hyphen_not_mem_of_isName {name : List Char} (h : isName name = true) : '-' ∉ name := by
  intro hmem
  have hword := (isName_iff.1 h).2 '-' hmem
  revert hword
  decide

variable {word name name' : String} (kind : List Char)

/-- Ids of one name. -/
lemma isAsked_of_name (hword : word.toList = kind ++ ['-']) (hkind : (kind, 1) ∈ idShapes)
    (hname : isName name.toList = true) : IsAsked (word ++ name) := by
  refine ⟨kind, [name.toList], ?_, hkind, fun part hpart => ?_⟩
  · simp [hword]
  · rw [List.mem_singleton.1 hpart]
    exact hyphen_not_mem_of_isName hname

/-- Ids of two names. -/
lemma isAsked_of_names (hword : word.toList = kind ++ ['-']) (hkind : (kind, 2) ∈ idShapes)
    (hname : isName name.toList = true) (hname' : isName name'.toList = true) :
    IsAsked (word ++ name ++ "-" ++ name') := by
  refine ⟨kind, [name.toList, name'.toList], ?_, hkind, fun part hpart => ?_⟩
  · simp [hword]
  · rcases List.mem_cons.1 hpart with rfl | hpart
    · exact hyphen_not_mem_of_isName hname
    · rw [List.mem_singleton.1 hpart]
      exact hyphen_not_mem_of_isName hname'

end Layout

end AgentScript
