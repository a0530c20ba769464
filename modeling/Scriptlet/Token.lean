/-
**Tokens.**

A token is a lexeme of the language with its kind, the literal value it denotes if it denotes one,
and its place in the source.

Main definitions:

* `Scriptlet.TokenKind` — the kinds: brackets, operators, keywords, literals and names, and the
  end of the source;
* `Scriptlet.TokenKind.text`, `Scriptlet.TokenKind.name` — the spelling of a kind and its name;
* `Scriptlet.TokenKind.startsStatement` — the kinds at which a reader recovers from an error;
* `Scriptlet.keyword?` — the kind of a reserved word;
* `Scriptlet.Literal`, `Scriptlet.Token`, `Scriptlet.Token.text` — tokens and how they are listed.

Main results:

* `Scriptlet.keyword?_eq_some_iff` — **a word is reserved exactly if it is the spelling of a
  keyword**.
-/

import Scriptlet.Decimal.Layout
import Scriptlet.Span

set_option relaxedAutoImplicit false
set_option autoImplicit false

namespace Scriptlet

/-! ### Kinds -/

/-- The kind of a token. -/
inductive TokenKind
  | leftParen
  | rightParen
  | leftBrace
  | rightBrace
  | comma
  | dot
  | minus
  | plus
  | semicolon
  | slash
  | star
  | question
  | colon
  | bang
  | bangEqual
  | equal
  | equalEqual
  | greater
  | greaterEqual
  | less
  | lessEqual
  | identifier
  | string
  | number
  | andWord
  | classWord
  | elseWord
  | falseWord
  | funWord
  | forWord
  | ifWord
  | nilWord
  | orWord
  | printWord
  | returnWord
  | superWord
  | thisWord
  | trueWord
  | varWord
  | whileWord
  | endOfSource
deriving DecidableEq, Repr, Inhabited

namespace TokenKind

/-- Every kind once, in the order of their definition. -/
def all : List TokenKind :=
  [.leftParen, .rightParen, .leftBrace, .rightBrace, .comma, .dot, .minus, .plus, .semicolon,
    .slash, .star, .question, .colon, .bang, .bangEqual, .equal, .equalEqual, .greater,
    .greaterEqual, .less, .lessEqual, .identifier, .string, .number, .andWord, .classWord,
    .elseWord, .falseWord, .funWord, .forWord, .ifWord, .nilWord, .orWord, .printWord,
    .returnWord, .superWord, .thisWord, .trueWord, .varWord, .whileWord, .endOfSource]

/-- The reserved words. -/
def keywords : List TokenKind :=
  [.andWord, .classWord, .elseWord, .falseWord, .funWord, .forWord, .ifWord, .nilWord, .orWord,
    .printWord, .returnWord, .superWord, .thisWord, .trueWord, .varWord, .whileWord]

/-- The spelling of a kind: the lexeme itself for operators, brackets and keywords, and a word for
the kinds with many lexemes. -/
def text : TokenKind → String
  | .leftParen => "("
  | .rightParen => ")"
  | .leftBrace => "\x7b"
  | .rightBrace => "\x7d"
  | .comma => ","
  | .dot => "."
  | .minus => "-"
  | .plus => "+"
  | .semicolon => ";"
  | .slash => "/"
  | .star => "*"
  | .question => "?"
  | .colon => ":"
  | .bang => "!"
  | .bangEqual => "!="
  | .equal => "="
  | .equalEqual => "=="
  | .greater => ">"
  | .greaterEqual => ">="
  | .less => "<"
  | .lessEqual => "<="
  | .identifier => "IDENTIFIER"
  | .string => "STRING"
  | .number => "NUMBER"
  | .andWord => "and"
  | .classWord => "class"
  | .elseWord => "else"
  | .falseWord => "false"
  | .funWord => "fun"
  | .forWord => "for"
  | .ifWord => "if"
  | .nilWord => "nil"
  | .orWord => "or"
  | .printWord => "print"
  | .returnWord => "return"
  | .superWord => "super"
  | .thisWord => "this"
  | .trueWord => "true"
  | .varWord => "var"
  | .whileWord => "while"
  | .endOfSource => "EOF"

/-- The name under which a kind is listed. -/
def name : TokenKind → String
  | .leftParen => "LeftParen"
  | .rightParen => "RightParen"
  | .leftBrace => "LeftBrace"
  | .rightBrace => "RightBrace"
  | .comma => "Comma"
  | .dot => "Dot"
  | .minus => "Minus"
  | .plus => "Plus"
  | .semicolon => "Semicolon"
  | .slash => "Slash"
  | .star => "Star"
  | .question => "Question"
  | .colon => "Colon"
  | .bang => "Bang"
  | .bangEqual => "BangEqual"
  | .equal => "Equal"
  | .equalEqual => "EqualEqual"
  | .greater => "Greater"
  | .greaterEqual => "GreaterEqual"
  | .less => "Less"
  | .lessEqual => "LessEqual"
  | .identifier => "Identifier"
  | .string => "String"
  | .number => "Number"
  | .andWord => "And"
  | .classWord => "Class"
  | .elseWord => "Else"
  | .falseWord => "False"
  | .funWord => "Fun"
  | .forWord => "For"
  | .ifWord => "If"
  | .nilWord => "Nil"
  | .orWord => "Or"
  | .printWord => "Print"
  | .returnWord => "Return"
  | .superWord => "Super"
  | .thisWord => "This"
  | .trueWord => "True"
  | .varWord => "Var"
  | .whileWord => "While"
  | .endOfSource => "Eof"

/-- The kind listed under a name. -/
def ofName? (n : String) : Option TokenKind := all.find? fun k => k.name == n

/-- The kinds that begin a statement, before which a reader that met an error stops. -/
def startsStatement : TokenKind → Bool
  | .classWord | .funWord | .varWord | .forWord | .ifWord | .whileWord | .printWord
  | .returnWord => true
  | _ => false

end TokenKind

/-- The kind of a reserved word. -/
def keyword? (word : String) : Option TokenKind :=
  TokenKind.keywords.find? fun k => k.text == word

/-- **A word is reserved exactly if it is the spelling of a keyword.** -/
theorem keyword?_eq_some_iff {word : String} {k : TokenKind} :
    keyword? word = some k ↔ k ∈ TokenKind.keywords ∧ k.text = word := by
  constructor
  · intro h
    exact ⟨List.mem_of_find?_eq_some h, by simpa using List.find?_some h⟩
  · rintro ⟨hk, rfl⟩
    have : ∀ k ∈ TokenKind.keywords, keyword? k.text = some k := by decide
    exact this k hk

/-! ### Tokens -/

/-- The value that a literal denotes. -/
inductive Literal
  /-- A number. -/
  | number (value : Float)
  /-- A string, its escapes decoded. -/
  | string (value : String)
deriving DecidableEq

namespace Literal

/-- A literal as it is listed and printed. -/
def text : Literal → String
  | .number x => Decimal.plainText x
  | .string s => s

end Literal

/-- A token of the source. -/
structure Token where
  /-- What the token is. -/
  kind : TokenKind
  /-- The source text of the token. -/
  lexeme : String
  /-- The value the token denotes, for numbers and strings. -/
  literal : Option Literal
  /-- The place of the token. -/
  span : Span
deriving DecidableEq

namespace Token

/-- The token at the end of a source. -/
def finish (span : Span) : Token := ⟨.endOfSource, "", none, span⟩

/-- A token as it is listed: its kind, its lexeme between quotes, its literal if it has one, and
its line. -/
def text (t : Token) : String :=
  t.kind.name ++ " '" ++ t.lexeme ++ "'"
    ++ (match t.literal with
      | some l => " " ++ l.text
      | none => "")
    ++ " @" ++ toString t.span.line

end Token

end Scriptlet
