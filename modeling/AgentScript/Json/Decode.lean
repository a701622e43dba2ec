import AgentScript.Json.Value
import AgentScript.Text.Printable
import AgentScript.Decimal.Shortest

/-!
# Records from JSON

A record is read from an object, whose members may come in any order, or from an array, which holds
the fields in the order of their declaration.  Members that the record does not declare are passed
over; a member that comes twice is refused.

Records are read from drafts and from plain values alike.  A *source* is anything that shows
itself as a `View`: the shape of its outermost layer.
-/

namespace AgentScript.Json

/-! ## What can be wrong -/

/-- What stands where something else was asked for. -/
inductive Found where
  | null
  | bool (value : Bool)
  | number (value : Number)
  | string (value : String)
  | sequence
  | map
  deriving Repr, Inhabited

/-- Why a JSON text holds no record of the wanted kind. -/
inductive Mismatch where
  | wrongType (found : Found) (expected : String)
  | wrongValue (found : Found) (expected : String)
  | wrongLength (length : Nat) (expected : String)
  | missingField (name : String)
  | repeatedField (name : String)
  | unknownVariant (name : String) (known : List String)
  | unknownKind (id kind : String)
  | wrongData (id : String) (reason : Mismatch)
  deriving Repr, Inhabited

/-- Why nothing could be decoded. -/
inductive DecodeError where
  | fault (fault : Fault)
  | mismatch (reason : Mismatch)
  deriving Repr, Inhabited

def Number.render : Number → String
  | .integer n => toString n
  | .real x => (Decimal.render x).getD "null"

def Found.describe : Found → String
  | .null => "null"
  | .bool true => "boolean `true`"
  | .bool false => "boolean `false`"
  | .number (.integer n) => "integer `" ++ (Number.integer n).render ++ "`"
  | .number (.real x) => "floating point `" ++ (Number.real x).render ++ "`"
  | .string s => "string " ++ Text.quote s
  | .sequence => "sequence"
  | .map => "map"

/-- The variants that would have been known: one, one or another, or one of many. -/
def listVariants : List String → String
  | [] => "there are no variants"
  | [a] => "expected `" ++ a ++ "`"
  | [a, b] => "expected `" ++ a ++ "` or `" ++ b ++ "`"
  | many => "expected one of " ++ ", ".intercalate (many.map fun v => "`" ++ v ++ "`")

def Mismatch.message : Mismatch → String
  | .wrongType found expected => "invalid type: " ++ found.describe ++ ", expected " ++ expected
  | .wrongValue found expected => "invalid value: " ++ found.describe ++ ", expected " ++ expected
  | .wrongLength length expected =>
    "invalid length " ++ toString length ++ ", expected " ++ expected
  | .missingField name => "missing field `" ++ name ++ "`"
  | .repeatedField name => "duplicate field `" ++ name ++ "`"
  | .unknownVariant name known => "unknown variant `" ++ name ++ "`, " ++ listVariants known
  | .unknownKind id kind => "Node '" ++ id ++ "' has an unknown node type: '" ++ kind ++ "'"
  | .wrongData id reason => "Node '" ++ id ++ "' carries invalid data: " ++ reason.message

/-- What was wrong with a document; where in the document is not told. -/
def DecodeError.message : DecodeError → String
  | .fault f => f.message
  | .mismatch m => m.message

/-- What decoding yields. -/
abbrev Decoded (α : Type) := Except DecodeError α

def Decoded.ofFault {α : Type} : Except Fault α → Decoded α
  | .ok a => .ok a
  | .error f => .error (.fault f)

/-- Refuses a source for its shape. -/
def refuse {α : Type} (reason : Mismatch) : Decoded α := .error (.mismatch reason)

/-! ## Sources -/

/-- The outermost layer of a source. -/
inductive View (σ : Type) where
  | null
  | bool (value : Bool)
  | number (value : Number)
  | string (value : String)
  | array (items : List σ) (ending : Ending)
  | object (members : List (Except Fault String × σ)) (ending : Ending)

def View.found {σ : Type} : View σ → Found
  | .null => .null
  | .bool b => .bool b
  | .number n => .number n
  | .string s => .string s
  | .array _ _ => .sequence
  | .object _ _ => .map

/-- Something that records can be read from. -/
class Source (σ : Type) where
  /-- The outermost layer, or the fault that stands there. -/
  view : σ → Except Fault (View σ)
  /-- The first fault in a part that is passed over. -/
  skip : σ → Option Fault
  /-- What to say of an array with more items than the record has fields. -/
  tooMany (length : Nat) : DecodeError

instance : Source Draft where
  view
    | .null => .ok .null
    | .bool b => .ok (.bool b)
    | .number t => .number <$> t.value
    | .string t => .string <$> t.value
    | .array items ending => .ok (.array items ending)
    | .object members ending => .ok (.object (members.map fun m => (m.1.value, m.2)) ending)
    | .broken f => .error f
  skip := Draft.fault?
  tooMany _ := .fault (.malformed .trailingCharacters)

instance : Source Value where
  view
    | .null => .ok .null
    | .bool b => .ok (.bool b)
    | .number n => .ok (.number n)
    | .string s => .ok (.string s)
    | .array items => .ok (.array items .closed)
    | .object members => .ok (.object (members.map fun m => (.ok m.1, m.2)) .closed)
  skip _ := none
  tooMany length := .mismatch (.wrongLength length "fewer elements in array")

section Decoders

variable {σ : Type} [Source σ]

/-- The outermost layer of a source. -/
def look (s : σ) : Decoded (View σ) := .ofFault (Source.view s)

/-! ## Single values -/

def decodeString (s : σ) : Decoded String := do
  match ← look s with
  | .string t => return t
  | v => refuse (.wrongType v.found "a string")

def decodeBool (s : σ) : Decoded Bool := do
  match ← look s with
  | .bool b => return b
  | v => refuse (.wrongType v.found "a boolean")

/-- An integer that is read as a double is rounded to it. -/
def Number.toFloat : Number → Float
  | .integer (.ofNat n) => n.toUInt64.toFloat
  | .integer (.negSucc n) => -(n + 1).toUInt64.toFloat
  | .real x => x

def decodeFloat (s : σ) : Decoded Float := do
  match ← look s with
  | .number n => return n.toFloat
  | v => refuse (.wrongType v.found "f64")

def decodeNat (s : σ) : Decoded Nat := do
  match ← look s with
  | .number (.integer (.ofNat n)) => return n
  | .number (.integer n) => refuse (.wrongValue (.number (.integer n)) "usize")
  | v => refuse (.wrongType v.found "usize")

/-- Nothing for `null`, and what the decoder makes of anything else. -/
def decodeOption {α : Type} (decode : σ → Decoded α) (s : σ) : Decoded (Option α) :=
  match Source.view s with
  | .ok .null => .ok none
  | _ => some <$> decode s

def decodeItems {α : Type} (decode : σ → Decoded α) : List σ → Decoded (List α)
  | [] => .ok []
  | s :: rest => do
    let a ← decode s
    return a :: (← decodeItems decode rest)

def decodeList {α : Type} (decode : σ → Decoded α) (s : σ) : Decoded (List α) := do
  match ← look s with
  | .array items ending =>
    let list ← decodeItems decode items
    Decoded.ofFault ending.check
    return list
  | v => refuse (.wrongType v.found "a sequence")

/-! ## Records -/

/-- Fills a field that must not be filled yet. -/
def fill {α : Type} (name : String) (field : Option α) (decode : σ → Decoded α) (s : σ) :
    Decoded (Option α) :=
  if field.isSome then refuse (.repeatedField name) else some <$> decode s

/-- Passes over a member that the record does not declare. -/
def passOver {ρ : Type} (r : ρ) (s : σ) : Decoded ρ :=
  match Source.skip s with
  | none => .ok r
  | some f => .error (.fault f)

/-- Goes through the members of an object; `set` puts one member into the record so far. -/
def foldMembers {ρ : Type} (set : ρ → String → σ → Decoded ρ) (ending : Ending) :
    ρ → List (Except Fault String × σ) → Decoded ρ
  | r, [] => do
    Decoded.ofFault ending.check
    return r
  | r, (key, s) :: rest => do
    let key ← Decoded.ofFault key
    let r ← set r key s
    foldMembers set ending r rest

/-- A field that has to be there. -/
def require {α : Type} (name : String) : Option α → Decoded α
  | some a => .ok a
  | none => refuse (.missingField name)

/-- An array that a record is read from. -/
structure Items (σ : Type) where
  /-- The record, as messages call it. -/
  record : String
  /-- The number of its fields. -/
  fields : Nat
  /-- The number of fields read so far. -/
  taken : Nat
  /-- The items that are left. -/
  items : List σ
  ending : Ending

/-- The next field of a record that is read from an array.  Where the array has ended, `absent`
takes its place if there is such a value. -/
def nextField {α : Type} (absent : Option α) (decode : σ → Decoded α) :
    StateT (Items σ) (Except DecodeError) α := fun rest =>
  match rest.items, absent with
  | s :: items, _ => do
    return (← decode s, { rest with taken := rest.taken + 1, items })
  | [], some a => do
    Decoded.ofFault rest.ending.check
    return (a, { rest with taken := rest.taken + 1 })
  | [], none => do
    Decoded.ofFault rest.ending.check
    refuse (.wrongLength rest.taken
      ("struct " ++ rest.record ++ " with " ++ toString rest.fields ++ " elements"))

/-- Nothing may be left of an array of the given length after the last field. -/
def endFields (length : Nat) (rest : Items σ) : Decoded Unit :=
  match rest.items, rest.ending with
  | _ :: _, _ => .error (Source.tooMany σ length)
  | [], .cutAfterComma _ => .error (.fault (.malformed .trailingCharacters))
  | [], ending => .ofFault ending.check

/-- What a record is read by. -/
structure RecordShape (σ ρ : Type) where
  /-- The record, as messages call it. -/
  name : String
  /-- The number of fields. -/
  fields : Nat
  /-- The record read from the members of an object. -/
  ofMembers : List (Except Fault String × σ) → Ending → Decoded ρ
  /-- The record read from the items of an array. -/
  ofItems : StateT (Items σ) (Except DecodeError) ρ

/-- Reads a record from an object or an array. -/
def decodeRecord {ρ : Type} (shape : RecordShape σ ρ) (s : σ) : Decoded ρ := do
  match ← look s with
  | .object members ending => shape.ofMembers members ending
  | .array items ending =>
    let (r, rest) ← shape.ofItems.run ⟨shape.name, shape.fields, 0, items, ending⟩
    endFields items.length rest
    return r
  | v => refuse (.wrongType v.found ("struct " ++ shape.name))

end Decoders

/-! ## Variants -/

/-- The variant of the given name. -/
def variantOf {α : Type} (variants : List (String × α)) (name : String) : Decoded α :=
  match variants.lookup name with
  | some a => .ok a
  | none => refuse (.unknownVariant name (variants.map (·.1)))

/-- The content of a variant, which has none: only `null` may stand for it. -/
def decodeUnit {σ : Type} [Source σ] (s : σ) : Decoded Unit := do
  match ← look s with
  | .null => return ()
  | v => refuse (.wrongType v.found "unit")

/-- A variant in a plain value: its name, or an object with its name as the only key. -/
def Value.decodeVariant {α : Type} (variants : List (String × α)) : Value → Decoded α
  | .string name => variantOf variants name
  | .object [(name, content)] => do
    let a ← variantOf variants name
    decodeUnit content
    return a
  | .object _ => refuse (.wrongValue .map "map with a single key")
  | .null => refuse (.wrongType .null "string or map")
  | .bool b => refuse (.wrongType (.bool b) "string or map")
  | .number n => refuse (.wrongType (.number n) "string or map")
  | .array _ => refuse (.wrongType .sequence "string or map")

/-- A variant in a draft.  Anything but a string or an object is no variant at all, and that shows at
its first character: what begins like a number or a keyword is refused before it can break off. -/
def Draft.decodeVariant {α : Type} (variants : List (String × α)) : Draft → Decoded α
  | .string t => do
    let name ← Decoded.ofFault t.value
    variantOf variants name
  | .object [] ending => do
    Decoded.ofFault ending.check
    .error (.fault (.malformed .expectedValue))
  | .object ((key, content) :: others) ending => do
    let name ← Decoded.ofFault key.value
    let a ← variantOf variants name
    decodeUnit content
    match others, ending with
    | [], .closed => return a
    | [], .cut f => .error (.fault f)
    | _, _ => .error (.fault (.malformed .expectedValue))
  | .broken (.unfinished .number) => .error (.fault (.malformed .expectedValue))
  | .broken (.unfinished .keyword) => .error (.fault (.malformed .expectedValue))
  | .broken fault => .error (.fault fault)
  | _ => .error (.fault (.malformed .expectedValue))

/-! ## Whole texts -/

/-- Decodes the value of a text, after which nothing but spaces may follow. -/
def decodeText {α : Type} (decode : Draft → Decoded α) (text : String) : Decoded α := do
  let (draft, more) := Draft.read text.toList
  let a ← decode draft
  if more then .error (.fault (.malformed .trailingCharacters)) else return a

end AgentScript.Json
