import AgentScript.Json.Token

/-!
# Drafts

A *draft* is a JSON text as far as it could be read: the tree of its values, with the first fault
at the place where reading broke off.  What a reader of records makes of a text depends on the
order of things in it.  A wrong shape near the front counts before a fault further back, and a
fault near the front hides every wrong shape behind it.  A draft keeps exactly that order, so the
shape can be checked after the whole text was read.

Numbers and strings stay as they are written, because a value that is passed over may hold numbers
of any size and unpaired surrogates.

## Reading

Reading is a pushdown automaton over the tokens.  Its stack holds the arrays and objects that are
open around the place that was reached, the innermost first.
-/

namespace AgentScript.Json

/-- How an array or an object ends. -/
inductive Ending where
  | closed
  /-- Something else than a comma or the closing bracket stands there, or nothing. -/
  | cut (fault : Fault)
  /-- The same after a comma. -/
  | cutAfterComma (fault : Fault)
  deriving DecidableEq, Repr, Inhabited

/-- A JSON text as far as it could be read. -/
inductive Draft where
  | null
  | bool (value : Bool)
  | number (text : NumberText)
  | string (text : StringText)
  | array (items : List Draft) (ending : Ending)
  | object (members : List (StringText × Draft)) (ending : Ending)
  | broken (fault : Fault)
  deriving Repr, Inhabited

/-- An open array or object, up to the value that is being read. -/
inductive Frame where
  | items (before : List Draft)
  | members (before : List (StringText × Draft)) (key : StringText)
  deriving Repr, Inhabited

/-- What the automaton waits for. -/
inductive Waiting where
  | value
  /-- The first item of an array, or its end. -/
  | itemOrEnd
  /-- The first key of an object, or its end. -/
  | keyOrEnd
  /-- A key after the members read so far and a comma. -/
  | key (before : List (StringText × Draft))
  /-- The colon after a key. -/
  | colon (before : List (StringText × Draft)) (key : StringText)
  /-- What follows a complete value. -/
  | after (value : Draft)
  deriving Repr, Inhabited

namespace Draft

/-- The draft of a text that broke off inside the given draft: nothing is known about the ends of
the open arrays and objects, and nobody gets to see them. -/
def enclose : List Frame → Draft → Draft
  | [], d => d
  | .items before :: outer, d =>
    enclose outer (.array (before ++ [d]) (.cut (.unfinished .array)))
  | .members before key :: outer, d =>
    enclose outer (.object (before ++ [(key, d)]) (.cut (.unfinished .object)))

/-- What the automaton does with a token. -/
inductive Step where
  | go (next : Waiting) (stack : List Frame)
  | stop (d : Draft)

/-- The step at the token that a value begins with. -/
def beginValue (stack : List Frame) : Token → Step
  | .openArray => .go .itemOrEnd stack
  | .openObject => .go .keyOrEnd stack
  | .null => .go (.after .null) stack
  | .bool b => .go (.after (.bool b)) stack
  | .number t => .go (.after (.number t)) stack
  | .string t => .go (.after (.string t)) stack
  | .broken fault => .stop (enclose stack (.broken fault))
  | _ => .stop (enclose stack (.broken (.malformed .expectedValue)))

/-- The step at the token that a key should be. -/
def beginKey (stack : List Frame) (before : List (StringText × Draft)) : Token → Step
  | .string key => .go (.colon before key) stack
  | .closeObject =>
    .stop (enclose stack (.object before (.cutAfterComma (.malformed .trailingComma))))
  | _ => .stop (enclose stack (.object before (.cutAfterComma (.malformed .keyNotString))))

/-- One step.  It is not taken when a value is complete and nothing is open around it. -/
def step : Waiting → List Frame → Token → Step
  | .value, .items before :: outer, .closeArray =>
    .stop (enclose outer (.array before (.cutAfterComma (.malformed .trailingComma))))
  | .value, stack, token => beginValue stack token
  | .itemOrEnd, stack, .closeArray => .go (.after (.array [] .closed)) stack
  | .itemOrEnd, stack, token => beginValue (.items [] :: stack) token
  | .keyOrEnd, stack, .closeObject => .go (.after (.object [] .closed)) stack
  | .keyOrEnd, stack, .string key => .go (.colon [] key) stack
  | .keyOrEnd, stack, _ =>
    .stop (enclose stack (.object [] (.cut (.malformed .keyNotString))))
  | .key before, stack, token => beginKey stack before token
  | .colon before key, stack, .colon => .go .value (.members before key :: stack)
  | .colon before key, stack, _ =>
    .stop (enclose (.members before key :: stack) (.broken (.malformed .expectedColon)))
  | .after d, [], _ => .stop d
  | .after d, .items before :: outer, .comma => .go .value (.items (before ++ [d]) :: outer)
  | .after d, .items before :: outer, .closeArray =>
    .go (.after (.array (before ++ [d]) .closed)) outer
  | .after d, .items before :: outer, _ =>
    .stop (enclose outer (.array (before ++ [d]) (.cut (.malformed .expectedItemEnd))))
  | .after d, .members before key :: outer, .comma => .go (.key (before ++ [(key, d)])) outer
  | .after d, .members before key :: outer, .closeObject =>
    .go (.after (.object (before ++ [(key, d)]) .closed)) outer
  | .after d, .members before key :: outer, _ =>
    .stop (enclose outer
      (.object (before ++ [(key, d)]) (.cut (.malformed .expectedMemberEnd))))

/-- The draft when the text ends. -/
def atEnd : Waiting → List Frame → Draft
  | .value, .items before :: outer =>
    enclose outer (.array before (.cutAfterComma (.unfinished .value)))
  | .value, stack => enclose stack (.broken (.unfinished .value))
  | .itemOrEnd, stack => enclose stack (.array [] (.cut (.unfinished .array)))
  | .keyOrEnd, stack => enclose stack (.object [] (.cut (.unfinished .object)))
  | .key before, stack =>
    enclose stack (.object before (.cutAfterComma (.unfinished .value)))
  | .colon before key, stack =>
    enclose (.members before key :: stack) (.broken (.unfinished .object))
  | .after d, [] => d
  | .after d, .items before :: outer =>
    enclose outer (.array (before ++ [d]) (.cut (.unfinished .array)))
  | .after d, .members before key :: outer =>
    enclose outer (.object (before ++ [(key, d)]) (.cut (.unfinished .object)))

/-- Reads one value, and returns what follows it. -/
def run : Waiting → List Frame → List Token → Draft × List Token
  | waiting, stack, [] => (atEnd waiting stack, [])
  | .after d, [], tokens => (d, tokens)
  | waiting, stack, token :: tokens =>
    match step waiting stack token with
    | .go next stack => run next stack tokens
    | .stop d => (d, tokens)

/-- The draft of a text, and whether anything but spaces follows its value. -/
def read (text : List Char) : Draft × Bool :=
  let (d, rest) := run .value [] (tokens text)
  (d, !rest.isEmpty)

end Draft

end AgentScript.Json
