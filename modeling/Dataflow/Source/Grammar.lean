import Dataflow.Source.Decl
import Dataflow.Source.Lexeme
import Dataflow.Source.Parser

/-!
# The grammar of quad files

A file holds any number of methods, each a list of labelled blocks:

    method name(2) static {
      entry -> bb2:
      bb2 -> bb3, exit:
        1: MOVE R2, 5
        2: IFCMP_EQ R2, null, exit
      bb3 -> exit:
        3: RETURN R2
    }

Blanks and comments may stand between any two words.
-/

namespace Dataflow.Source

open Dataflow.Source.Parser

/-- Reads a word of the named shape. -/
def word (r : Rule) (scan : List Char → Option Cut) : Parser Word :=
  rule r do
    let offset ← Parser.offset
    let s ← scanned scan
    return ⟨offset, String.ofList s⟩

def blockName : Parser Word := word .blockName cutBlockName

def quadId : Parser Word := word .quadId cutDigits

/-- What starts the next line rather than going on with the arguments of this one. -/
def label : Parser Unit := do
  let _ ← quadId <|> blockName
  skip
  literal "->" <|> literal ":"

def arg : Parser ArgDecl := do
  notAhead label
  skip
  (return .register (← word .register cutRegister).text) <|>
    (do let _ ← word .null cutNull; return .null) <|>
    (return .integer (← word .integer cutInteger)) <|>
    (return .block (← blockName)) <|>
    (return .symbol (← word .symbol cutSymbol).text)

/-- Reads one or more of `p`, separated by commas. -/
def commaList {α : Type} (p : Parser α) : Parser (List α) := do
  let a ← p
  skip
  let as ← many (do literal ","; skip; p)
  return a :: as

def quad : Parser QuadDecl :=
  rule .quad do
    let id ← quadId
    skip
    literal ":"
    skip
    let opcode ← word .opcode cutOpcode
    skip
    let args ← Parser.optional (commaList arg)
    return ⟨id, opcode.text, args.getD []⟩

def successors : Parser (List Word) :=
  rule .successors do
    literal "->"
    skip
    commaList blockName

def block : Parser BlockDecl :=
  rule .block do
    let name ← blockName
    skip
    let succs ← Parser.optional successors
    skip
    literal ":"
    skip
    let quads ← many quad
    return ⟨name, succs.getD [], quads⟩

def method : Parser MethodDecl :=
  rule .method do
    literal "method"
    skip
    let name ← word .methodName cutMethodName
    skip
    literal "("
    skip
    let params ← word .paramCount cutDigits
    skip
    literal ")"
    skip
    let flag ← Parser.optional (rule .staticFlag (literal "static"))
    skip
    literal "\x7b"
    skip
    let blocks ← many block
    skip
    literal "\x7d"
    return ⟨name.text, params, flag.isSome, blocks⟩

def program : Parser (List MethodDecl) :=
  rule .program do
    skip
    let methods ← many method
    skip
    rule .endOfInput atEnd
    return methods

/-- Whether a text is a quad file, leaving aside what its numbers and blocks mean. -/
def check (text : String) : Bool := (program.run ⟨0, text.toList⟩).isSome

end Dataflow.Source
