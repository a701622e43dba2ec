import AgentScript.Script.Field
import AgentScript.Text.Leading

/-!
# Headers

A declaration begins with a *header*: a keyword, what the keyword asks for, and an opening brace.

| header                              | declares                                      |
|-------------------------------------|-----------------------------------------------|
| `agent Name {`                      | an agent                                      |
| `tool name(params) -> Type {`       | a tool; the arrow and the type may be missing |
| `on name {`                         | an event handler                              |
| `state {`                           | a state block                                 |
| `type Name {`                       | a type                                        |

A header stands at the front of a text, after blanks at will; what follows its brace is the *rest*.
Blanks may stand between any two parts, and must stand between a keyword and a name.  Parameters
run up to the first closing parenthesis, whatever they hold.
-/

namespace AgentScript.Script

open AgentScript.Text

/-- What a header declares. -/
inductive Header where
  | agent (name : String)
  | tool (name params : String) (returns : Option String)
  | event (name : String)
  | state
  | type (name : String)
  deriving DecidableEq, Repr, Inhabited

namespace Header

/-- The rest of a text after at least one blank. -/
def readBlanks : List Char → Option (List Char)
  | [] => none
  | c :: cs => if isBlank c then some (dropBlanks cs) else none

/-- A keyword and a name, and what follows the blanks after the name. -/
def readNamed (word : String) (cs : List Char) : Option (String × List Char) := do
  let rest ← after? word.toList (dropBlanks cs)
  let rest ← readBlanks rest
  let (name, rest) ← readName rest
  return (String.ofList name, dropBlanks rest)

/-- What stands before the first closing parenthesis, and what follows the parenthesis. -/
def readParams (cs : List Char) : Option (List Char × List Char) :=
  match cs.dropWhile (· != ')') with
  | [] => none
  | _ :: rest => some (cs.takeWhile (· != ')'), rest)

/-- The type after an arrow, and what follows it; nothing if there is no arrow or no type. -/
def readReturns (cs : List Char) : Option (List Char × List Char) := do
  let rest ← expect '-' cs
  let rest ← expect '>' rest
  readType (dropBlanks rest)

def readAgent (cs : List Char) : Option (Header × List Char) := do
  let (name, rest) ← readNamed "agent" cs
  return (.agent name, ← expect '{' rest)

def readTool (cs : List Char) : Option (Header × List Char) := do
  let (name, rest) ← readNamed "tool" cs
  let rest ← expect '(' rest
  let (params, rest) ← readParams rest
  let params := String.ofList (trim params)
  match readReturns (dropBlanks rest) with
  | some (returns, rest) =>
    return (.tool name params (some (String.ofList returns)), ← expect '{' (dropBlanks rest))
  | none => return (.tool name params none, ← expect '{' (dropBlanks rest))

def readEvent (cs : List Char) : Option (Header × List Char) := do
  let (name, rest) ← readNamed "on" cs
  return (.event name, ← expect '{' rest)

def readState (cs : List Char) : Option (Header × List Char) := do
  let rest ← after? "state".toList (dropBlanks cs)
  return (.state, ← expect '{' (dropBlanks rest))

def readTypeDecl (cs : List Char) : Option (Header × List Char) := do
  let (name, rest) ← readNamed "type" cs
  return (.type name, ← expect '{' rest)

/-- The header at the front of a text, and the rest after its brace.  No text begins with headers
of two kinds, so the order of the attempts does not matter. -/
def read? (cs : List Char) : Option (Header × List Char) :=
  readAgent cs <|> readTool cs <|> readEvent cs <|> readState cs <|> readTypeDecl cs

/-! ## What is left begins after a brace -/

theorem after?_suffix {ls cs rest : List Char} (h : after? ls cs = some rest) : rest <:+ cs :=
  ⟨ls, (after?_eq_some_iff.1 h).symm⟩

theorem readBlanks_suffix {cs rest : List Char} (h : readBlanks cs = some rest) :
    rest <:+ cs := by
  cases cs with
  | nil => simp [readBlanks] at h
  | cons c cs =>
    simp only [readBlanks] at h
    split at h
    · simp only [Option.some.injEq] at h
      exact h ▸ (dropBlanks_suffix cs).trans (List.suffix_cons c cs)
    · simp at h

theorem readNamed_suffix {word : String} {cs : List Char} {name : String} {rest : List Char}
    (h : readNamed word cs = some (name, rest)) : rest <:+ cs := by
  simp only [readNamed, Option.bind_eq_bind, Option.bind_eq_some_iff,
    Option.pure_def, Option.some.injEq, Prod.exists, Prod.mk.injEq] at h
  obtain ⟨a, ha, b, hb, n, c, hc, _, rfl⟩ := h
  exact (dropBlanks_suffix c).trans <| (readName_suffix hc).trans <|
    (readBlanks_suffix hb).trans <| (after?_suffix ha).trans (dropBlanks_suffix cs)

theorem readParams_suffix {cs params rest : List Char} (h : readParams cs = some (params, rest)) :
    rest <:+ cs := by
  simp only [readParams] at h
  split at h
  · simp at h
  · rename_i c r hr
    simp only [Option.some.injEq, Prod.mk.injEq] at h
    exact h.2 ▸ (hr ▸ List.suffix_cons c r).trans (List.dropWhile_suffix (· != ')'))

theorem readReturns_suffix {cs type rest : List Char} (h : readReturns cs = some (type, rest)) :
    rest <:+ cs := by
  simp only [readReturns, Option.bind_eq_bind, Option.bind_eq_some_iff, expect_eq_some] at h
  obtain ⟨a, rfl, b, rfl, hc⟩ := h
  exact (readType_suffix hc).trans <| (dropBlanks_suffix b).trans <|
    (List.suffix_cons _ _).trans (List.suffix_cons _ _)

theorem readAgent_suffix {cs : List Char} {h : Header} {rest : List Char}
    (hr : readAgent cs = some (h, rest)) : '{' :: rest <:+ cs := by
  simp only [readAgent, Option.bind_eq_bind, Option.bind_eq_some_iff, Option.pure_def,
    Option.some.injEq, Prod.exists, Prod.mk.injEq, expect_eq_some] at hr
  obtain ⟨name, a, ha, b, rfl, _, rfl⟩ := hr
  exact readNamed_suffix ha

theorem readEvent_suffix {cs : List Char} {h : Header} {rest : List Char}
    (hr : readEvent cs = some (h, rest)) : '{' :: rest <:+ cs := by
  simp only [readEvent, Option.bind_eq_bind, Option.bind_eq_some_iff, Option.pure_def,
    Option.some.injEq, Prod.exists, Prod.mk.injEq, expect_eq_some] at hr
  obtain ⟨name, a, ha, b, rfl, _, rfl⟩ := hr
  exact readNamed_suffix ha

theorem readTypeDecl_suffix {cs : List Char} {h : Header} {rest : List Char}
    (hr : readTypeDecl cs = some (h, rest)) : '{' :: rest <:+ cs := by
  simp only [readTypeDecl, Option.bind_eq_bind, Option.bind_eq_some_iff, Option.pure_def,
    Option.some.injEq, Prod.exists, Prod.mk.injEq, expect_eq_some] at hr
  obtain ⟨name, a, ha, b, rfl, _, rfl⟩ := hr
  exact readNamed_suffix ha

theorem readState_suffix {cs : List Char} {h : Header} {rest : List Char}
    (hr : readState cs = some (h, rest)) : '{' :: rest <:+ cs := by
  simp only [readState, Option.bind_eq_bind, Option.bind_eq_some_iff,
    Option.pure_def, Option.some.injEq, Prod.mk.injEq, expect_eq_some] at hr
  obtain ⟨a, ha, b, hb, _, rfl⟩ := hr
  exact hb ▸ (dropBlanks_suffix a).trans <|
    (after?_suffix ha).trans (dropBlanks_suffix cs)

theorem readTool_suffix {cs : List Char} {h : Header} {rest : List Char}
    (hr : readTool cs = some (h, rest)) : '{' :: rest <:+ cs := by
  simp only [readTool, Option.bind_eq_bind, Option.bind_eq_some_iff, Prod.exists,
    expect_eq_some] at hr
  obtain ⟨name, a, ha, b, rfl, params, c, hc, hr⟩ := hr
  have hc := (readParams_suffix hc).trans <| (List.suffix_cons _ _).trans (readNamed_suffix ha)
  split at hr
  · rename_i type d hd
    simp only [Option.bind_eq_some_iff, Option.pure_def, Option.some.injEq, Prod.mk.injEq,
      expect_eq_some] at hr
    obtain ⟨e, he, _, rfl⟩ := hr
    exact he ▸ (dropBlanks_suffix d).trans <| (readReturns_suffix hd).trans <|
      (dropBlanks_suffix c).trans hc
  · simp only [Option.bind_eq_some_iff, Option.pure_def, Option.some.injEq, Prod.mk.injEq,
      expect_eq_some] at hr
    obtain ⟨e, he, _, rfl⟩ := hr
    exact he ▸ (dropBlanks_suffix c).trans hc

/-- A header ends with its brace. -/
theorem read?_suffix {cs : List Char} {h : Header} {rest : List Char}
    (hr : read? cs = some (h, rest)) : '{' :: rest <:+ cs := by
  simp only [read?, Option.orElse_eq_orElse, Option.orElse_eq_or, Option.or_eq_some_iff] at hr
  rcases hr with hr | ⟨_, hr | ⟨_, hr | ⟨_, hr | ⟨_, hr⟩⟩⟩⟩
  · exact readAgent_suffix hr
  · exact readTool_suffix hr
  · exact readEvent_suffix hr
  · exact readState_suffix hr
  · exact readTypeDecl_suffix hr

theorem length_lt_of_read? {cs : List Char} {h : Header} {rest : List Char}
    (hr : read? cs = some (h, rest)) : rest.length < cs.length :=
  (read?_suffix hr).length_le

/-- Whether a text begins with a header. -/
def starts (cs : List Char) : Bool := (read? cs).isSome

/-- Whether a text begins with the header of an agent. -/
def startsAgent (cs : List Char) : Bool := (readAgent cs).isSome

/-- Whether the header opens a body that holds fields. -/
def opensFields : Header → Bool
  | .state => true
  | .type _ => true
  | _ => false

end Header

end AgentScript.Script
