/-!
# Words

The shapes of the words of a quad file. Each is cut off the front of a text, as long as it can be; a
word that has to end where a name could go on is refused there.
-/

namespace Dataflow.Source

/-- A piece cut off the front of a text, and what is left. -/
abbrev Cut := List Char × List Char

def isNameStart (c : Char) : Bool := c.isAlpha || c = '_' || c = '$' || c = '<'

def isNameChar (c : Char) : Bool := c.isAlphanum || c = '_' || c = '$'

/-- Cuts off the characters that satisfy `p`. -/
def cutWhile (p : Char → Bool) (s : List Char) : Cut := (s.takeWhile p, s.dropWhile p)

/-- Cuts off a first character and all that may follow it. -/
def cutWord (first later : Char → Bool) : List Char → Option Cut
  | [] => none
  | c :: s => if first c then some (c :: (cutWhile later s).1, (cutWhile later s).2) else none

def cutDigits : List Char → Option Cut := cutWord Char.isDigit Char.isDigit

/-- Cuts off `w`. -/
def cutText (w s : List Char) : Option Cut := if w.isPrefixOf s then some (w, s.drop w.length) else none

/-- Cuts off one thing after another. -/
def cutBoth (a b : List Char → Option Cut) (s : List Char) : Option Cut := do
  let (x, s) ← a s
  let (y, s) ← b s
  return (x ++ y, s)

/-- Refuses a cut that leaves a name going on. -/
def wholeName (a : List Char → Option Cut) (s : List Char) : Option Cut := do
  let (x, s) ← a s
  if (s.head?.map isNameChar).getD false then none else return (x, s)

/-! ### The words -/

def cutMethodName : List Char → Option Cut := cutWord isNameStart fun c => isNameChar c || c = '>'

def cutBlockName : List Char → Option Cut :=
  wholeName fun s =>
    (cutText ['e', 'n', 't', 'r', 'y'] s).or <| (cutText ['e', 'x', 'i', 't'] s).or <|
      cutBoth (cutText ['b', 'b']) cutDigits s

def cutOpcode : List Char → Option Cut :=
  cutWord Char.isUpper fun c => c.isUpper || c.isDigit || c = '_'

def cutRegister : List Char → Option Cut :=
  wholeName <| cutBoth (fun s => (cutText ['R'] s).or (cutText ['T'] s)) cutDigits

def cutNull : List Char → Option Cut := wholeName <| cutText ['n', 'u', 'l', 'l']

def cutInteger : List Char → Option Cut :=
  wholeName fun s => (cutBoth (cutText ['-']) cutDigits s).or (cutDigits s)

def cutSymbol : List Char → Option Cut :=
  cutWord isNameStart fun c => isNameChar c || c = '.' || c = '/' || c = '<' || c = '>'

end Dataflow.Source
