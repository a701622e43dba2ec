import AgentScript.Json.Draft

/-!
# Plain values

A plain value is a JSON text of which everything was read: numbers have values, strings have
characters.  The members of an object that was read are ordered by key, and of several members with
one key the last counts; an object that is to be written keeps the order it was built in.
-/

namespace AgentScript.Json

inductive Value where
  | null
  | bool (value : Bool)
  | number (value : Number)
  | string (value : String)
  | array (items : List Value)
  | object (members : List (String × Value))
  deriving Repr, Inhabited

/-! ## Strings -/

def isLeadingSurrogate (n : Nat) : Bool := 0xD800 ≤ n && n < 0xDC00

def isTrailingSurrogate (n : Nat) : Bool := 0xDC00 ≤ n && n < 0xE000

/-- The character that a pair of surrogates stands for. -/
def joinSurrogates (n m : Nat) : Char := Char.ofNat (0x10000 + (n - 0xD800) * 0x400 + (m - 0xDC00))

/-- The characters of a string that ends as told: surrogates have to come in pairs. -/
def joinUnits (fault : Option Fault) : List StringUnit → Except Fault (List Char)
  | [] =>
    match fault with
    | none => .ok []
    | some f => .error f
  | .plain c :: units => (c :: ·) <$> joinUnits fault units
  | .code n :: units =>
    if isTrailingSurrogate n then .error (.malformed .loneSurrogate)
    else if isLeadingSurrogate n then
      match units with
      | .code m :: units =>
        if isTrailingSurrogate m then (joinSurrogates n m :: ·) <$> joinUnits fault units
        else .error (.malformed .loneSurrogate)
      | .plain _ :: _ => .error (.malformed .endOfSurrogatePair)
      | [] => .error (fault.getD (.malformed .endOfSurrogatePair))
    else (Char.ofNat n :: ·) <$> joinUnits fault units

/-- The value of a string. -/
def StringText.value (t : StringText) : Except Fault String :=
  String.ofList <$> joinUnits t.fault t.units

/-! ## Reading drafts -/

/-- Puts a member in its place by key, instead of an earlier one with that key. -/
def putMember (key : String) (value : Value) : List (String × Value) → List (String × Value)
  | [] => [(key, value)]
  | (k, v) :: rest =>
    if key < k then (key, value) :: (k, v) :: rest
    else if k = key then (key, value) :: rest
    else (k, v) :: putMember key value rest

/-- The members in the order of their keys; of several with one key the last stays. -/
def arrange (members : List (String × Value)) : List (String × Value) :=
  members.foldl (fun placed m => putMember m.1 m.2 placed) []

/-- The fault at the end of an array or an object, if any. -/
def Ending.fault? : Ending → Option Fault
  | .closed => none
  | .cut f => some f
  | .cutAfterComma f => some f

/-- Succeeds at the closing bracket. -/
def Ending.check (e : Ending) : Except Fault Unit :=
  match e.fault? with
  | none => .ok ()
  | some f => .error f

/-- Arrays and objects inside one another may be this deep, the outermost included. -/
def depthLimit : Nat := 127

namespace Draft

mutual

/-- The plain value of a draft in which at most `depth` arrays and objects may lie inside one
another. -/
def toValue (depth : Nat) : Draft → Except Fault Value
  | .null => .ok .null
  | .bool b => .ok (.bool b)
  | .number t => .number <$> t.value
  | .string t => .string <$> t.value
  | .array items ending =>
    match depth with
    | 0 => .error (.malformed .nestedTooDeep)
    | depth + 1 => do
      let items ← toValues depth items
      ending.check
      return .array items
  | .object members ending =>
    match depth with
    | 0 => .error (.malformed .nestedTooDeep)
    | depth + 1 => do
      let members ← toMembers depth members
      ending.check
      return .object (arrange members)
  | .broken fault => .error fault

def toValues (depth : Nat) : List Draft → Except Fault (List Value)
  | [] => .ok []
  | d :: ds => do
    let v ← toValue depth d
    return v :: (← toValues depth ds)

def toMembers (depth : Nat) : List (StringText × Draft) → Except Fault (List (String × Value))
  | [] => .ok []
  | (key, d) :: ms => do
    let key ← key.value
    let v ← toValue depth d
    return (key, v) :: (← toMembers depth ms)

end

mutual

/-- The first fault of a draft that is passed over.  Its numbers may be of any size and its
surrogates unpaired, but a number may not end before its digits. -/
def fault? : Draft → Option Fault
  | .string t => t.fault
  | .array items ending => (faultOfItems? items).or ending.fault?
  | .object members ending => (faultOfMembers? members).or ending.fault?
  | .broken (.unfinished .number) => some (.malformed .invalidNumber)
  | .broken fault => some fault
  | _ => none

def faultOfItems? : List Draft → Option Fault
  | [] => none
  | d :: ds => (fault? d).or (faultOfItems? ds)

def faultOfMembers? : List (StringText × Draft) → Option Fault
  | [] => none
  | (key, d) :: ms => (key.fault.or (fault? d)).or (faultOfMembers? ms)

end

end Draft

end AgentScript.Json
