/-!
# Faults of a JSON text

A text that is no JSON has a first place where this shows.  Either a character stands there that
cannot go on, and the text is *malformed*; or the text ends there too early, and it is *unfinished*.
-/

namespace AgentScript.Json

/-- What is wrong with a character. -/
inductive Malformation where
  | expectedValue
  | expectedKeyword
  | expectedColon
  | expectedItemEnd
  | expectedMemberEnd
  | keyNotString
  | trailingComma
  | trailingCharacters
  | controlCharacter
  | invalidEscape
  | loneSurrogate
  | endOfSurrogatePair
  | invalidNumber
  | numberOutOfRange
  | nestedTooDeep
  deriving DecidableEq, Repr, Inhabited

/-- What the text ends inside of. -/
inductive Inside where
  | array
  | object
  | string
  | value
  | keyword
  | number
  deriving DecidableEq, Repr, Inhabited

/-- Why a text is no JSON. -/
inductive Fault where
  | malformed (what : Malformation)
  | unfinished (what : Inside)
  deriving DecidableEq, Repr, Inhabited

def Malformation.message : Malformation → String
  | .expectedValue => "expected value"
  | .expectedKeyword => "expected ident"
  | .expectedColon => "expected `:`"
  | .expectedItemEnd => "expected `,` or `]`"
  | .expectedMemberEnd => "expected `,` or `\x7d`"
  | .keyNotString => "key must be a string"
  | .trailingComma => "trailing comma"
  | .trailingCharacters => "trailing characters"
  | .controlCharacter => "control character (\\u0000-\\u001F) found while parsing a string"
  | .invalidEscape => "invalid escape"
  | .loneSurrogate => "lone leading surrogate in hex escape"
  | .endOfSurrogatePair => "unexpected end of hex escape"
  | .invalidNumber => "invalid number"
  | .numberOutOfRange => "number out of range"
  | .nestedTooDeep => "recursion limit exceeded"

def Inside.message : Inside → String
  | .array => "EOF while parsing a list"
  | .object => "EOF while parsing an object"
  | .string => "EOF while parsing a string"
  | .value => "EOF while parsing a value"
  | .keyword => "EOF while parsing a value"
  | .number => "EOF while parsing a value"

def Fault.message : Fault → String
  | .malformed what => what.message
  | .unfinished what => what.message

end AgentScript.Json
