import AgentScript.Proofs.Script.Masking
import AgentScript.Script.Finding
import AgentScript.Script.Opening
import Mathlib.Algebra.Ring.Int.Defs
import Mathlib.Data.List.Induction

/-!
# Matching braces

The braces of a script are matched as brackets are: a closing brace matches the last opening brace
before it that is still open, and is *stray* if there is none.  What is left in the end are the
opening braces that nothing closed and the closing braces that closed nothing.

Two stretches of braces are matched one after the other by matching each for itself and letting the
stray closing braces of the second take what the first left open (`unclosed_append`,
`strays_append`).  With that, a brace is still open exactly if the braces behind it, taken for
themselves, have no stray one among them, and the braces that are open within it are theirs
(`exists_of_unclosed_eq_append`).

An opening brace is kept together with the header it ends, if it ends one.
-/

namespace AgentScript.Script

/-- An opening brace. -/
structure OpenBrace where
  line : Nat
  /-- The header that the brace ends. -/
  header : Option Opening
  deriving DecidableEq, Repr, Inhabited

namespace OpenBrace

/-- The name of the agent whose header ends with the brace, and the place of that header. -/
def agent? (b : OpenBrace) : Option (String × Place) :=
  match b.header with
  | some ⟨.agent name, column, _⟩ => some (name, ⟨b.line, column⟩)
  | _ => none

/-- What the brace opens. -/
def opener (b : OpenBrace) : Opener :=
  match b.header with
  | some ⟨.agent name, _, _⟩ => .agent name
  | some ⟨.state, _, _⟩ => .state
  | some ⟨.type name, _, _⟩ => .type name
  | _ => .block

/-- Whether the brace opens a body that holds fields. -/
def holdsFields (b : OpenBrace) : Bool := b.header.any (·.header.opensFields)

end OpenBrace

/-- A brace that counts. -/
inductive Brace where
  | opening (b : OpenBrace)
  | closing (line : Nat)
  deriving DecidableEq, Repr, Inhabited

/-- What is left of some braces when they are matched. -/
structure Matching where
  /-- The opening braces that nothing closed, the innermost first. -/
  unclosed : List OpenBrace := []
  /-- The lines of the closing braces that closed nothing. -/
  strays : List Nat := []
  deriving DecidableEq, Repr, Inhabited

/-- What is left after one more brace. -/
def Matching.add (m : Matching) : Brace → Matching
  | .opening b => { m with unclosed := b :: m.unclosed }
  | .closing line =>
    match m.unclosed with
    | [] => { m with strays := m.strays ++ [line] }
    | _ :: outer => { m with unclosed := outer }

/-- What is left of some braces when they are matched. -/
def matching (bs : List Brace) : Matching := bs.foldl Matching.add {}

/-- Whether every brace has its counterpart. -/
def balanced (bs : List Brace) : Bool := matching bs == {}

/-- The innermost agent whose brace is still open after the given braces. -/
def enclosingAgent? (bs : List Brace) : Option (String × Place) :=
  (matching bs).unclosed.findSome? OpenBrace.agent?

variable {bs xs ys : List Brace} {b : OpenBrace} {line : Nat}

/-! ## One more brace -/

@[simp] lemma matching_nil : matching [] = {} := rfl

lemma matching_append_singleton (bs : List Brace) (x : Brace) :
    matching (bs ++ [x]) = (matching bs).add x := by
  rw [matching, List.foldl_append, List.foldl_cons, List.foldl_nil, matching]

@[simp] lemma unclosed_append_opening (bs : List Brace) (b : OpenBrace) :
    (matching (bs ++ [.opening b])).unclosed = b :: (matching bs).unclosed := by
  rw [matching_append_singleton, Matching.add]

@[simp] lemma strays_append_opening (bs : List Brace) (b : OpenBrace) :
    (matching (bs ++ [.opening b])).strays = (matching bs).strays := by
  rw [matching_append_singleton, Matching.add]

lemma unclosed_append_closing (bs : List Brace) (line : Nat) :
    (matching (bs ++ [.closing line])).unclosed = (matching bs).unclosed.tail := by
  rw [matching_append_singleton, Matching.add]
  split
  next h => rw [h, List.tail_nil]
  next h => rw [h, List.tail_cons]

lemma strays_append_closing (bs : List Brace) (line : Nat) :
    (matching (bs ++ [.closing line])).strays =
      (matching bs).strays ++ if (matching bs).unclosed = [] then [line] else [] := by
  rw [matching_append_singleton, Matching.add]
  split
  next h => rw [if_pos h]
  next h => rw [if_neg (by rw [h]; exact List.cons_ne_nil _ _), List.append_nil]

/-! ## One stretch after another -/

/-- The closing braces that are stray in the second stretch close what the first left open, and are
stray only beyond that. -/
theorem matching_append (xs ys : List Brace) :
    matching (xs ++ ys) =
      ⟨(matching ys).unclosed ++ (matching xs).unclosed.drop (matching ys).strays.length,
        (matching xs).strays ++ (matching ys).strays.drop (matching xs).unclosed.length⟩ := by
  induction ys using List.reverseRecOn with
  | nil => simp
  | append_singleton ys y ih =>
    rw [← List.append_assoc, matching_append_singleton, ih]
    cases y with
    | opening b => simp [Matching.add]
    | closing line =>
      rw [unclosed_append_closing, strays_append_closing]
      cases hys : (matching ys).unclosed with
      | cons c inner => simp [Matching.add]
      | nil =>
        -- The brace is stray behind the second stretch; it depends on the first what it closes.
        rw [if_pos rfl, List.tail_nil, List.nil_append, List.nil_append, List.length_append,
          List.length_singleton, ← List.tail_drop]
        cases hdrop : (matching xs).unclosed.drop (matching ys).strays.length with
        | nil =>
          have hlength := List.drop_eq_nil_iff.1 hdrop
          rw [List.drop_append_of_le_length hlength, List.tail_nil, ← List.append_assoc]
          rfl
        | cons c outer =>
          have hlength : (matching ys).strays.length < (matching xs).unclosed.length := by
            by_contra hle
            rw [List.drop_of_length_le (Nat.le_of_not_lt hle)] at hdrop
            cases hdrop
          have hnone : ∀ {ls : List Nat}, ls.length ≤ (matching xs).unclosed.length →
              ls.drop (matching xs).unclosed.length = [] := fun h => List.drop_of_length_le h
          rw [hnone hlength.le, hnone (by rw [List.length_append]; exact hlength), List.tail_cons]
          rfl

theorem unclosed_append (xs ys : List Brace) :
    (matching (xs ++ ys)).unclosed =
      (matching ys).unclosed ++ (matching xs).unclosed.drop (matching ys).strays.length := by
  rw [matching_append]

theorem strays_append (xs ys : List Brace) :
    (matching (xs ++ ys)).strays =
      (matching xs).strays ++ (matching ys).strays.drop (matching xs).unclosed.length := by
  rw [matching_append]

/-! ## Which braces are open -/

/-- The braces behind one that is open have no stray one among them. -/
lemma exists_of_unclosed_eq_append {inner outer : List OpenBrace}
    (h : (matching bs).unclosed = inner ++ b :: outer) :
    ∃ front back, bs = front ++ .opening b :: back ∧ matching back = ⟨inner, []⟩ := by
  induction bs using List.reverseRecOn generalizing inner with
  | nil => simp at h
  | append_singleton bs x ih =>
    cases x with
    | opening c =>
      rw [unclosed_append_opening] at h
      cases inner with
      | nil =>
        obtain ⟨rfl, -⟩ := List.cons.inj h
        exact ⟨bs, [], rfl, rfl⟩
      | cons d inner =>
        rw [List.cons_append, List.cons.injEq] at h
        obtain ⟨rfl, hunclosed⟩ := h
        obtain ⟨front, back, rfl, hback⟩ := ih hunclosed
        refine ⟨front, back ++ [.opening c], by simp, ?_⟩
        rw [matching_append_singleton, hback, Matching.add]
    | closing line =>
      rw [unclosed_append_closing] at h
      cases hbs : (matching bs).unclosed with
      | nil => simp [hbs] at h
      | cons d rest =>
        rw [hbs, List.tail_cons] at h
        rw [h] at hbs
        have hopen : (matching bs).unclosed = (d :: inner) ++ b :: outer := hbs
        obtain ⟨front, back, rfl, hback⟩ := ih hopen
        refine ⟨front, back ++ [.closing line], by simp, ?_⟩
        rw [matching_append_singleton, hback, Matching.add]

/-- **The agent around a place** is the one of the last opening brace that the braces behind it do
not close, and behind which they leave no other agent open. -/
theorem enclosingAgent?_eq_some_iff {agent : String × Place} :
    enclosingAgent? bs = some agent ↔
      ∃ front b back, bs = front ++ .opening b :: back ∧ b.agent? = some agent ∧
        (matching back).strays = [] ∧ ∀ c ∈ (matching back).unclosed, c.agent? = none := by
  rw [enclosingAgent?, List.findSome?_eq_some_iff]
  constructor
  · rintro ⟨inner, b, outer, hunclosed, hagent, hinner⟩
    obtain ⟨front, back, rfl, hback⟩ := exists_of_unclosed_eq_append hunclosed
    exact ⟨front, b, back, rfl, hagent, by rw [hback], by rwa [hback]⟩
  · rintro ⟨front, b, back, rfl, hagent, hstrays, hinner⟩
    refine ⟨(matching back).unclosed, b, (matching front).unclosed, ?_, hagent, hinner⟩
    rw [← List.singleton_append, ← List.append_assoc, unclosed_append, hstrays]
    simp

/-! ## How many braces are open -/

/-- The opening braces less the closing ones. -/
def Brace.net : Brace → Int
  | .opening _ => 1
  | .closing _ => -1

/-- What is left open less what is stray is what was opened less what was closed. -/
lemma sum_net (bs : List Brace) :
    (bs.map Brace.net).sum = (matching bs).unclosed.length - (matching bs).strays.length := by
  induction bs using List.reverseRecOn with
  | nil => rfl
  | append_singleton bs x ih =>
    rw [List.map_append, List.sum_append, ih]
    cases x with
    | opening b =>
      rw [unclosed_append_opening, strays_append_opening]
      simp [Brace.net]
      omega
    | closing line =>
      rw [unclosed_append_closing, strays_append_closing]
      cases hbs : (matching bs).unclosed <;> simp [Brace.net] <;> omega

/-- In a balanced text, more is closed than opened behind an opening brace. -/
lemma sum_net_neg {front back : List Brace}
    (h : balanced (front ++ .opening b :: back) = true) : (back.map Brace.net).sum < 0 := by
  have hmatching : matching (front ++ .opening b :: back) = {} := beq_iff_eq.1 h
  have hsum := sum_net (front ++ .opening b :: back)
  have hstrays := strays_append front (.opening b :: back)
  rw [hmatching] at hsum hstrays
  have hfront := sum_net front
  rw [(List.append_eq_nil_iff.1 hstrays.symm).1] at hfront
  simp only [List.map_append, List.map_cons, List.sum_append, List.sum_cons, Brace.net,
    List.length_nil] at hsum hfront
  omega

end AgentScript.Script
