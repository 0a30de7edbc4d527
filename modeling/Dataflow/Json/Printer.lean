import Dataflow.Json.Basic

/-!
# Writing JSON

Either on one line, or one item a line with two blanks for each level. Only quotes, backslashes and
control characters are escaped.
-/

namespace Dataflow.Json

/-- A digit from 0 to 15. -/
def hexDigit (n : Nat) : Char := "0123456789abcdef".toList.getD n '0'

def escape (c : Char) : List Char :=
  if c = '"' then ['\\', '"']
  else if c = '\\' then ['\\', '\\']
  else if c = '\n' then ['\\', 'n']
  else if c = '\r' then ['\\', 'r']
  else if c = '\t' then ['\\', 't']
  else if c = '\x08' then ['\\', 'b']
  else if c = '\x0c' then ['\\', 'f']
  else if c.toNat < 0x20 then ['\\', 'u', '0', '0', hexDigit (c.toNat / 16), hexDigit (c.toNat % 16)]
  else [c]

def quote (s : String) : String := "\"" ++ String.ofList (s.toList.flatMap escape) ++ "\""

mutual

/-- On one line. -/
def compact : Json → String
  | null => "null"
  | bool b => if b then "true" else "false"
  | number s => s
  | string s => quote s
  | array items => "[" ++ ",".intercalate (compactItems items) ++ "]"
  | object fields => "\x7b" ++ ",".intercalate (compactFields fields) ++ "\x7d"

def compactItems : List Json → List String
  | [] => []
  | j :: js => compact j :: compactItems js

def compactFields : List (String × Json) → List String
  | [] => []
  | (k, j) :: fs => (quote k ++ ":" ++ compact j) :: compactFields fs

end

/-- Puts items on lines of their own, one level in. -/
def indented (margin opening closing : String) (items : List String) : String :=
  match items with
  | [] => opening ++ closing
  | _ =>
    let inner := "\n" ++ margin ++ "  "
    opening ++ inner ++ ("," ++ inner).intercalate items ++ "\n" ++ margin ++ closing

mutual

/-- One item a line, all but the first after `margin`. -/
def prettyAt (margin : String) : Json → String
  | null => "null"
  | bool b => if b then "true" else "false"
  | number s => s
  | string s => quote s
  | array items => indented margin "[" "]" (prettyItems (margin ++ "  ") items)
  | object fields => indented margin "\x7b" "\x7d" (prettyFields (margin ++ "  ") fields)

def prettyItems (margin : String) : List Json → List String
  | [] => []
  | j :: js => prettyAt margin j :: prettyItems margin js

def prettyFields (margin : String) : List (String × Json) → List String
  | [] => []
  | (k, j) :: fs => (quote k ++ ": " ++ prettyAt margin j) :: prettyFields margin fs

end

/-- One item a line. -/
def pretty (j : Json) : String := prettyAt "" j

end Dataflow.Json
