/-!
# Where reading stopped

While a text is read, each named part of the grammar that is tried in vain at the furthest position
is remembered. When the whole text is refused, these attempts say where and what was expected there.
-/

namespace Dataflow.Source

/-- The named parts of the grammar, in the order in which messages list them. -/
inductive Rule where
  | endOfInput | program | method | methodName | paramCount | staticFlag | block | successors
  | blockName | quad | quadId | opcode | register | null | integer | symbol
deriving DecidableEq, Repr

namespace Rule

def all : List Rule :=
  [endOfInput, program, method, methodName, paramCount, staticFlag, block, successors, blockName, quad,
    quadId, opcode, register, null, integer, symbol]

def text : Rule → String
  | endOfInput => "EOI"
  | program => "program"
  | method => "method"
  | methodName => "method_name"
  | paramCount => "param_count"
  | staticFlag => "static_flag"
  | block => "block"
  | successors => "successors"
  | blockName => "block_name"
  | quad => "quad"
  | quadId => "quad_id"
  | opcode => "opcode"
  | register => "register"
  | null => "null"
  | integer => "integer"
  | symbol => "symbol"

end Rule

/-- The parts tried in vain at `offset`: those that should have matched, and those that should not. -/
structure Attempts where
  offset : Nat
  expected : List Rule
  unexpected : List Rule
deriving DecidableEq, Repr

namespace Attempts

def none : Attempts := ⟨0, [], []⟩

/-- How many attempts are remembered at offset `i`. -/
def countAt (a : Attempts) (i : Nat) : Nat :=
  if i = a.offset then a.expected.length + a.unexpected.length else 0

/-- Forgets what was added at `i` since `before`. -/
def rewind (a before : Attempts) (i : Nat) : Attempts :=
  if i = a.offset then
    if i = before.offset then
      { a with
        expected := a.expected.take before.expected.length
        unexpected := a.unexpected.take before.unexpected.length }
    else ⟨i, [], []⟩
  else a

/-- Moves on to offset `i` if that is further. -/
def advance (a : Attempts) (i : Nat) : Attempts := if a.offset < i then ⟨i, [], []⟩ else a

/-- Remembers `r` at offset `i`, if that is the furthest. -/
def add (a : Attempts) (negative : Bool) (r : Rule) (i : Nat) : Attempts :=
  if i = a.offset then
    if negative then { a with unexpected := a.unexpected ++ [r] }
    else { a with expected := a.expected ++ [r] }
  else a

/-- Remembers that `r` was tried in vain at offset `i`; `before` is what was remembered when `r` was
begun. A single attempt inside `r` tells more than `r` itself and stays; several give way to `r`. -/
def record (a before : Attempts) (negative : Bool) (r : Rule) (i : Nat) : Attempts :=
  if a.countAt i = before.countAt i + 1 then a
  else ((a.rewind before i).advance i).add negative r i

end Attempts

/-! ### The message -/

/-- Line and column, from 1, after the given text. A line ends with `\n`, with or without `\r` before
it. -/
def lineColumn (line column : Nat) : List Char → Nat × Nat
  | [] => (line, column)
  | '\r' :: '\n' :: s => lineColumn (line + 1) 1 s
  | '\n' :: s => lineColumn (line + 1) 1 s
  | _ :: s => lineColumn line (column + 1) s

/-- The number of the line that holds offset `i` of a text. -/
def lineAt (text : List Char) (i : Nat) : Nat := (lineColumn 1 1 (text.take i)).1

/-- The line around offset `i`, with its line end. -/
def lineAround (text : List Char) (i : Nat) : List Char :=
  let start := ((text.take i).reverse.takeWhile (· ≠ '\n')).reverse
  let stop := text.drop i
  start ++ stop.takeWhile (· ≠ '\n') ++ (stop.dropWhile (· ≠ '\n')).take 1

/-- Line ends as they are shown: as visible signs, or not at all. -/
def showLine (visible : Bool) (s : List Char) : List Char :=
  if visible then s.map fun c => if c = '\r' then '␍' else if c = '\n' then '␊' else c
  else s.filter fun c => c ≠ '\r' ∧ c ≠ '\n'

/-- Why a text is refused: where, and what was tried there. -/
structure SyntaxError where
  line : Nat
  column : Nat
  shown : String
  expected : List Rule
  unexpected : List Rule
deriving DecidableEq, Repr

namespace SyntaxError

def ofAttempts (text : List Char) (a : Attempts) : SyntaxError :=
  let (line, column) := lineColumn 1 1 (text.take a.offset)
  let atLineEnd := match text.drop a.offset with
    | c :: _ => c = '\n' ∨ c = '\r'
    | [] => False
  { line, column
    shown := String.ofList (showLine atLineEnd (lineAround text a.offset))
    expected := Rule.all.filter (· ∈ a.expected)
    unexpected := Rule.all.filter (· ∈ a.unexpected) }

/-- `a`, `a or b`, `a, b, or c`. -/
def enumerate : List Rule → String
  | [] => ""
  | [a] => a.text
  | [a, b] => a.text ++ " or " ++ b.text
  | rs => ", ".intercalate (rs.dropLast.map Rule.text) ++ ", or " ++ (rs.getLast?.map Rule.text).getD ""

def reason (e : SyntaxError) : String :=
  match e.expected, e.unexpected with
  | [], [] => "unknown parsing error"
  | _, [] => "expected " ++ enumerate e.expected
  | [], _ => "unexpected " ++ enumerate e.unexpected
  | _, _ => "unexpected " ++ enumerate e.unexpected ++ "; expected " ++ enumerate e.expected

/-- Points at the column, under the line. -/
def underline (e : SyntaxError) : String :=
  String.ofList ((e.shown.toList.take (e.column - 1)).map fun c => if c = '\t' then '\t' else ' ') ++ "^---"

def message (e : SyntaxError) : String :=
  let number := toString e.line
  let margin := String.ofList (List.replicate number.length ' ')
  "\n".intercalate
    [margin ++ "--> " ++ number ++ ":" ++ toString e.column,
      margin ++ " |",
      number ++ " | " ++ e.shown,
      margin ++ " | " ++ e.underline,
      margin ++ " |",
      margin ++ " = " ++ e.reason]

end SyntaxError

end Dataflow.Source
