import Dataflow.Source.Attempts

/-!
# Readers

A reader tries to read a value at a position and may refuse. Choice is ordered and repetition takes as
much as it can; neither is reconsidered. What a reader accepts (`run`) does not depend on the attempts
made on the way; these are worked out apart (`track`), to explain a refusal.
-/

namespace Dataflow.Source

/-- A position in a text: how many characters come before it, and those that come after. -/
structure Cursor where
  offset : Nat
  rest : List Char
deriving DecidableEq, Repr

/-- A reader of values of type `α`. -/
structure Parser (α : Type) where
  run : Cursor → Option (α × Cursor)
  track : (negative : Bool) → Cursor → Attempts → Attempts

namespace Parser

variable {α β : Type}

/-- Reads nothing. -/
def pure (a : α) : Parser α := ⟨fun c => some (a, c), fun _ _ t => t⟩

/-- Reads one thing after another. -/
def bind (p : Parser α) (f : α → Parser β) : Parser β where
  run c := (p.run c).bind fun (a, c) => (f a).run c
  track negative c t :=
    let t := p.track negative c t
    match p.run c with
    | some (a, c) => (f a).track negative c t
    | none => t

instance : Monad Parser where
  pure := pure
  bind := bind

/-- Reads the one, or else the other. -/
def orElse (p q : Parser α) : Parser α where
  run c := (p.run c).or (q.run c)
  track negative c t :=
    let t := p.track negative c t
    if (p.run c).isSome then t else q.track negative c t

instance : OrElse (Parser α) where
  orElse p q := orElse p (q ())

/-- Reads a value or nothing. -/
def optional (p : Parser α) : Parser (Option α) := some <$> p <|> pure none

/-- Reads nothing, where `p` refuses. -/
def notAhead (p : Parser α) : Parser Unit where
  run c := if (p.run c).isSome then none else some ((), c)
  track negative := p.track !negative

/-- Reads a named part of the grammar. -/
def rule (r : Rule) (p : Parser α) : Parser α where
  run := p.run
  track negative c t :=
    let t' := p.track negative c t
    if (p.run c).isSome == negative then t'.record t negative r c.offset else t'

/-- Reads a piece of text that `scan` cuts off the front. -/
def scanned (scan : List Char → Option (List Char × List Char)) : Parser (List Char) where
  run c := (scan c.rest).map fun (s, rest) => (s, ⟨c.offset + s.length, rest⟩)
  track _ _ t := t

/-- Reads exactly this text. -/
def literal (s : String) : Parser Unit where
  run c :=
    if s.toList.isPrefixOf c.rest then some ((), ⟨c.offset + s.length, c.rest.drop s.length⟩) else none
  track _ _ t := t

/-- The position itself. -/
def offset : Parser Nat := ⟨fun c => some (c.offset, c), fun _ _ t => t⟩

/-- Reads nothing, at the end of the text. -/
def atEnd : Parser Unit := ⟨fun c => if c.rest.isEmpty then some ((), c) else none, fun _ _ t => t⟩

/-! ### Repetition -/

/-- As many values as can be read, each after some progress. -/
def runAll (p : Parser α) (c : Cursor) : List α × Cursor :=
  match p.run c with
  | none => ([], c)
  | some (a, c') =>
    if c'.rest.length < c.rest.length then
      let (as, c'') := runAll p c'
      (a :: as, c'')
    else ([a], c')
termination_by c.rest.length

def trackAll (p : Parser α) (negative : Bool) (c : Cursor) (t : Attempts) : Attempts :=
  let t := p.track negative c t
  match p.run c with
  | none => t
  | some (_, c') => if c'.rest.length < c.rest.length then trackAll p negative c' t else t
termination_by c.rest.length

/-- Reads as many values as it can. -/
def repeated (p : Parser α) : Parser (List α) := ⟨fun c => some (runAll p c), trackAll p⟩

/-! ### Blanks and comments -/

def isSpace (c : Char) : Bool := c = ' ' || c = '\t' || c = '\n' || c = '\r'

/-- The position after all blanks and comments. A comment starts with `#` or `//` and ends with the
line. -/
def skipFrom (inComment : Bool) (offset : Nat) : List Char → Cursor
  | [] => ⟨offset, []⟩
  | c :: s =>
    if inComment then skipFrom (c != '\n' && c != '\r') (offset + 1) s
    else if isSpace c then skipFrom false (offset + 1) s
    else if c = '#' || (c = '/' && s.head? = some '/') then skipFrom true (offset + 1) s
    else ⟨offset, c :: s⟩

/-- Reads blanks and comments. -/
def skip : Parser Unit := ⟨fun c => some ((), skipFrom false c.offset c.rest), fun _ _ t => t⟩

/-- Reads as many values as it can, with blanks between them. -/
def many (p : Parser α) : Parser (List α) :=
  (do
    let a ← p
    let as ← repeated (do skip; p)
    return a :: as) <|> pure []

/-- Reads the whole text, or explains why it cannot. -/
def parse (p : Parser α) (text : String) : Except SyntaxError α :=
  let start : Cursor := ⟨0, text.toList⟩
  match p.run start with
  | some (a, _) => .ok a
  | none => .error (.ofAttempts text.toList (p.track false start .none))

end Parser

end Dataflow.Source
