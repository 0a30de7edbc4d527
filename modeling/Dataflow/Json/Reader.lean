import Dataflow.Json.Basic

/-!
# Reading JSON

Strictly by the standard: no comments, no trailing commas, no leading zeros, nothing after the value
but blanks. A character escape that is half of a pair is read as U+FFFD; only the names of the fields of
the outermost object have to be whole. Records with defaults are read from the values.
-/

namespace Dataflow.Json

/-- What is left of the text. -/
abbrev Rest := List Char

def skipBlanks (s : Rest) : Rest := s.dropWhile fun c => c = ' ' || c = '\n' || c = '\t' || c = '\r'

/-! ### Strings -/

def hexValue? (c : Char) : Option Nat :=
  if c.isDigit then some (c.toNat - '0'.toNat)
  else if 'a' ≤ c ∧ c ≤ 'f' then some (c.toNat - 'a'.toNat + 10)
  else if 'A' ≤ c ∧ c ≤ 'F' then some (c.toNat - 'A'.toNat + 10)
  else none

/-- The character behind a one-letter escape. -/
def escaped? (c : Char) : Option Char :=
  match c with
  | '"' => some '"'
  | '\\' => some '\\'
  | '/' => some '/'
  | 'b' => some '\x08'
  | 'f' => some '\x0c'
  | 'n' => some '\n'
  | 'r' => some '\r'
  | 't' => some '\t'
  | _ => none

/-- Reads up to the closing quote. Answers code points, and halves of pairs as they are written. -/
def stringUnits : Rest → Option (List Nat × Rest)
  | [] => none
  | '"' :: s => some ([], s)
  | '\\' :: 'u' :: a :: b :: c :: d :: s => do
    let n := 4096 * (← hexValue? a) + 256 * (← hexValue? b) + 16 * (← hexValue? c) + (← hexValue? d)
    let (us, s) ← stringUnits s
    return (n :: us, s)
  | '\\' :: e :: s => do
    let c ← escaped? e
    let (us, s) ← stringUnits s
    return (c.toNat :: us, s)
  | c :: s => do
    if c.toNat < 0x20 then none
    else
      let (us, s) ← stringUnits s
      return (c.toNat :: us, s)

def isHigh (n : Nat) : Bool := 0xd800 ≤ n && n < 0xdc00

def isLow (n : Nat) : Bool := 0xdc00 ≤ n && n < 0xe000

/-- Joins pairs. The flag says whether the text is whole: no half was left over. -/
def joinPairs : List Nat → List Char × Bool
  | [] => ([], true)
  | [n] => if isHigh n || isLow n then (['\ufffd'], false) else ([Char.ofNat n], true)
  | n :: m :: us =>
    if isHigh n && isLow m then
      let (cs, ok) := joinPairs us
      (Char.ofNat (0x10000 + 0x400 * (n - 0xd800) + (m - 0xdc00)) :: cs, ok)
    else
      let (cs, ok) := joinPairs (m :: us)
      if isHigh n || isLow n then ('\ufffd' :: cs, false) else (Char.ofNat n :: cs, ok)

/-- Reads a string after its opening quote. -/
def readString (s : Rest) : Option ((String × Bool) × Rest) := do
  let (us, s) ← stringUnits s
  let (cs, ok) := joinPairs us
  return ((String.ofList cs, ok), s)

/-! ### Numbers -/

def cutDigits (s : Rest) : Option (List Char × Rest) :=
  match s.takeWhile Char.isDigit with
  | [] => none
  | ds => some (ds, s.dropWhile Char.isDigit)

/-- Digits without a leading zero. -/
def cutWhole (s : Rest) : Option (List Char × Rest) := do
  let (ds, s) ← cutDigits s
  if ds.head? = some '0' && ds.length > 1 then none else return (ds, s)

def cutFraction (s : Rest) : Option (List Char × Rest) :=
  match s with
  | '.' :: s => (cutDigits s).map fun (ds, s) => ('.' :: ds, s)
  | _ => some ([], s)

def cutExponent (s : Rest) : Option (List Char × Rest) :=
  match s with
  | e :: s' =>
    if e = 'e' || e = 'E' then
      match s' with
      | sign :: s'' =>
        if sign = '+' || sign = '-' then (cutDigits s'').map fun (ds, s) => (e :: sign :: ds, s)
        else (cutDigits s').map fun (ds, s) => (e :: ds, s)
      | [] => none
    else some ([], s)
  | [] => some ([], s)

def readNumber (s : Rest) : Option (Json × Rest) := do
  let (sign, s) := match s with
    | '-' :: s => (['-'], s)
    | _ => ([], s)
  let (whole, s) ← cutWhole s
  let (fraction, s) ← cutFraction s
  let (exponent, s) ← cutExponent s
  return (number (String.ofList (sign ++ whole ++ fraction ++ exponent)), s)

/-! ### Values -/

def readWord (w : String) (j : Json) (s : Rest) : Option (Json × Rest) :=
  if w.toList.isPrefixOf s then some (j, s.drop w.length) else none

mutual

/-- Reads a value that is nested at most `depth` levels. If `strict`, the names of its fields have to be
whole. -/
def readValue (strict : Bool) : (depth : Nat) → Rest → Option (Json × Rest)
  | 0, _ => none
  | depth + 1, s =>
    match skipBlanks s with
    | '"' :: s => (readString s).map fun ((t, _), s) => (string t, s)
    | '[' :: s =>
      match skipBlanks s with
      | ']' :: s => some (array [], s)
      | _ => (readItems depth s).map fun (js, s) => (array js, s)
    | '\x7b' :: s =>
      match skipBlanks s with
      | '\x7d' :: s => some (object [], s)
      | _ => (readFields strict depth s).map fun (fs, s) => (object fs, s)
    | s =>
      (readWord "null" null s).or <| (readWord "true" (bool true) s).or <|
        (readWord "false" (bool false) s).or (readNumber s)

/-- Reads the items of an array up to its end. -/
def readItems : (depth : Nat) → Rest → Option (List Json × Rest)
  | 0, _ => none
  | depth + 1, s => do
    let (j, s) ← readValue false depth s
    match skipBlanks s with
    | ',' :: s =>
      let (js, s) ← readItems depth s
      return (j :: js, s)
    | ']' :: s => return ([j], s)
    | _ => none

/-- Reads the fields of an object up to its end. -/
def readFields (strict : Bool) : (depth : Nat) → Rest → Option (List (String × Json) × Rest)
  | 0, _ => none
  | depth + 1, s => do
    match skipBlanks s with
    | '"' :: s =>
      let ((name, whole), s) ← readString s
      if strict && !whole then none
      else
        match skipBlanks s with
        | ':' :: s =>
          let (j, s) ← readValue false depth s
          match skipBlanks s with
          | ',' :: s =>
            let (fs, s) ← readFields strict depth s
            return ((name, j) :: fs, s)
          | '\x7d' :: s => return ([(name, j)], s)
          | _ => none
        | _ => none
    | _ => none

end

/-- Reads a text that holds one value. Every level, item and field takes a character, so the text is
deep enough for itself. -/
def parse? (text : String) : Option Json :=
  match readValue true (2 * text.length + 2) text.toList with
  | some (j, s) => if (skipBlanks s).isEmpty then some j else none
  | none => none

/-! ### Records

A record is written as an object, where fields that are not known are ignored and a known one may not
be repeated, or as an array of the first few fields in order. Fields that are left out keep their
defaults.
-/

/-- The values given for the named fields, in the order of the names. -/
def record? (names : List String) : Json → Option (List (Option Json))
  | object fields =>
    let values (n : String) := fields.filterMap fun (k, j) => if k = n then some j else none
    if names.all fun n => (values n).length ≤ 1 then some (names.map fun n => (values n).head?) else none
  | array items =>
    if items.length ≤ names.length then
      some ((List.range names.length).map (items[·]?))
    else none
  | _ => none

/-- A field that may be left out. -/
def fieldOr {α : Type} (default : α) (read : Json → Option α) : Option Json → Option α
  | none => some default
  | some j => read j

/-- A count that fits 64 bits. -/
def count? (j : Json) : Option Nat := j.nat?.filter (· < UInt64.size)

end Dataflow.Json
