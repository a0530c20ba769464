/-
**Reading tokens.**

A parser reads a list of tokens through a `Cursor`: the tokens ahead, the token at the end that is
never passed, the token just behind, the numbers that are still free, and the errors reported so
far.  A parser answers with a `Reply`: a value, or the error that ends the current declaration,
each with the cursor it leaves behind.  The recursion of a parser is bounded by fuel, and a parser
that runs out of it answers `starved`.

Main definitions:

* `Scriptlet.SyntaxFault`, `Scriptlet.SyntaxError` — what can go wrong, and at which token;
* `Scriptlet.Counter`, `Scriptlet.Counter.endless`, `Scriptlet.Counter.word` — how the numbers of
  expressions follow one another: without end, or in one machine word;
* `Scriptlet.Supply` — the numbers that name expressions and label routines;
* `Scriptlet.Cursor`, `Scriptlet.Cursor.ofTokens` — a place in a list of tokens;
* `Scriptlet.Reply`, `Scriptlet.Parser` — parsers and their answers;
* `Scriptlet.Parser.peek`, `Scriptlet.Parser.advance`, `Scriptlet.Parser.expect`, … — single steps;
* `Scriptlet.Cursor.synchronize` — the place where reading goes on after an error.

Main results:

* `Scriptlet.Cursor.synchronize_ahead` — recovery only drops tokens from the front, and at least
  one if there is one.
-/

import Scriptlet.Program
import Scriptlet.Token

set_option relaxedAutoImplicit false
set_option autoImplicit false

namespace Scriptlet

/-! ### Errors -/

/-- The two sorts of routines. -/
inductive RoutineRole
  | function
  | method
deriving DecidableEq, Repr

/-- The word for a sort of routine. -/
def RoutineRole.text : RoutineRole → String
  | .function => "function"
  | .method => "method"

/-- Where a bracket or a mark of punctuation was expected. -/
inductive Place
  | beforeClassBody
  | afterClassBody
  | afterRoutineName (role : RoutineRole)
  | afterParameters
  | beforeRoutineBody (role : RoutineRole)
  | afterVariable
  | afterPrinted
  | afterReturned
  | afterBlock
  | afterIf
  | afterIfCondition
  | afterWhile
  | afterWhileCondition
  | afterFor
  | afterLoopCondition
  | afterForClauses
  | afterExpression
  | afterArguments
  | afterSuper
deriving DecidableEq, Repr

/-- The words for a place. -/
def Place.text : Place → String
  | .beforeClassBody => "before class body"
  | .afterClassBody => "after class body"
  | .afterRoutineName role => "after " ++ role.text ++ " name"
  | .afterParameters => "after parameters"
  | .beforeRoutineBody role => "before " ++ role.text ++ " body"
  | .afterVariable => "after variable declaration"
  | .afterPrinted => "after value"
  | .afterReturned => "after return value"
  | .afterBlock => "after block"
  | .afterIf => "after 'if'"
  | .afterIfCondition => "after if condition"
  | .afterWhile => "after 'while'"
  | .afterWhileCondition => "after while condition"
  | .afterFor => "after 'for'"
  | .afterLoopCondition => "after loop condition"
  | .afterForClauses => "after for clauses"
  | .afterExpression => "after expression"
  | .afterArguments => "after arguments"
  | .afterSuper => "after 'super'"

/-- What a name that was expected would have named. -/
inductive NameRole
  | classDecl
  | superclass
  | routine (role : RoutineRole)
  | parameter
  | variable
  | property
  | superMethod
deriving DecidableEq, Repr

/-- The words for a name that was expected. -/
def NameRole.text : NameRole → String
  | .classDecl => "class name"
  | .superclass => "superclass name"
  | .routine role => role.text ++ " name"
  | .parameter => "parameter name"
  | .variable => "variable name"
  | .property => "property name after '.'"
  | .superMethod => "superclass method name"

/-- The two lists whose length is limited. -/
inductive ListRole
  | parameters
  | arguments
deriving DecidableEq, Repr

/-- The word for a list. -/
def ListRole.text : ListRole → String
  | .parameters => "parameters"
  | .arguments => "arguments"

/-- The greatest number of parameters or arguments. -/
def arityLimit : Nat := 255

/-- What can go wrong when tokens are read. -/
inductive SyntaxFault
  /-- A bracket, a mark of punctuation or a dot is missing. -/
  | expectedToken (kind : TokenKind) (place : Place)
  /-- A name is missing. -/
  | expectedName (role : NameRole)
  /-- No expression begins here. -/
  | expectedExpression
  /-- A literal has no value. -/
  | malformedLiteral
  /-- A choice has no second branch. -/
  | ternaryWithoutColon
  /-- The left side of an assignment is neither a variable nor a property. -/
  | invalidAssignmentTarget
  /-- A list is too long. -/
  | tooMany (role : ListRole)
deriving DecidableEq, Repr

/-- The wording of a fault. -/
def SyntaxFault.message : SyntaxFault → String
  | .expectedToken kind place => "expected '" ++ kind.text ++ "' " ++ place.text
  | .expectedName role => "expected " ++ role.text
  | .expectedExpression => "expected expression"
  | .malformedLiteral => "malformed literal"
  | .ternaryWithoutColon => "illegal ternary expression: expected ':' after true branch"
  | .invalidAssignmentTarget => "invalid assignment target"
  | .tooMany role => "can't have more than " ++ toString arityLimit ++ " " ++ role.text

/-- A fault and the token it was found at. -/
structure SyntaxError where
  /-- What went wrong. -/
  fault : SyntaxFault
  /-- The token at which it went wrong. -/
  token : Token
deriving DecidableEq

namespace SyntaxError

/-- The place an error points at, at least one byte long. -/
def span (e : SyntaxError) : Span :=
  ⟨e.token.span.offset, max e.token.span.len 1, e.token.span.line⟩

/-- The words for the place of an error. -/
def location (e : SyntaxError) : String :=
  if e.token.kind = .endOfSource then "end" else "'" ++ e.token.lexeme ++ "'"

end SyntaxError

/-! ### Numbers -/

/-- How the numbers of expressions follow one another. -/
class Counter where
  /-- The number that is given away after another. -/
  next : ExprId → ExprId

namespace Counter

/-- The counter that has a new number for every expression.  It counts wherever no other counter is
named. -/
instance endless : Counter := ⟨fun n => n + 1⟩

/-- **The counter of one machine word**, which is 0 again behind its greatest number. -/
@[reducible]
def word : Counter := ⟨fun n => (n + 1) % UInt64.size⟩

@[simp] theorem next_endless (n : ExprId) : endless.next n = n + 1 := rfl

@[simp] theorem next_word (n : ExprId) : word.next n = (n + 1) % UInt64.size := rfl

end Counter

/-! ### Cursors -/

/-- The numbers that have not been given away. -/
structure Supply where
  /-- The next number of an expression. -/
  expr : ExprId
  /-- The next label of a routine. -/
  routine : Nat
deriving DecidableEq, Repr, Inhabited

/-- The supply of which nothing has been given away. -/
def Supply.full : Supply := ⟨0, 0⟩

/-- A place in a list of tokens. -/
structure Cursor where
  /-- The tokens that have not been read, without the end of the source. -/
  ahead : List Token
  /-- The token at the end of the source. -/
  finish : Token
  /-- The token read last; before the first one, the end of the source. -/
  last : Token
  /-- The numbers that are still free. -/
  supply : Supply
  /-- The errors reported so far, the newest first. -/
  errors : List SyntaxError

namespace Cursor

/-- Whether a token is not the end of the source. -/
def isInner (t : Token) : Bool := t.kind != .endOfSource

/-- The token at the end of a list of tokens: the first one of that kind, or else one just behind
the last token. -/
def finishOf (ts : List Token) : Token :=
  match ts.find? fun t => !isInner t with
  | some t => t
  | none =>
      match ts.getLast? with
      | some t => .finish ⟨t.span.stop, 0, t.span.line⟩
      | none => .finish ⟨0, 0, 1⟩

/-- The cursor at the start of a list of tokens.  What stands behind the first end of the source is
not read. -/
def ofTokens (ts : List Token) (supply : Supply) : Cursor :=
  ⟨ts.takeWhile isInner, finishOf ts, finishOf ts, supply, []⟩

/-- The next token. -/
def next (c : Cursor) : Token :=
  match c.ahead with
  | t :: _ => t
  | [] => c.finish

/-- The cursor behind the next token; the end of the source is not passed. -/
def advance (c : Cursor) : Cursor :=
  match c.ahead with
  | t :: ts => { c with ahead := ts, last := t }
  | [] => c

/-- The token at which reading goes on, given the token just passed and the tokens ahead: behind a
semicolon, or before a token that starts a statement. -/
def settle (last : Token) : List Token → Token × List Token
  | [] => (last, [])
  | t :: ts =>
      if last.kind = .semicolon then (last, t :: ts)
      else if t.kind.startsStatement then (last, t :: ts)
      else settle t ts

/-- The cursor at which reading goes on after an error: one token is passed, and then every token
up to a boundary between statements. -/
def synchronize (c : Cursor) : Cursor :=
  match c.ahead with
  | [] => c
  | t :: ts =>
      let (last, ahead) := settle t ts
      { c with ahead := ahead, last := last }

theorem settle_suffix (last : Token) (ts : List Token) : (settle last ts).2 <:+ ts := by
  induction ts generalizing last with
  | nil => simp [settle]
  | cons t ts ih =>
      unfold settle
      split
      · exact List.suffix_rfl
      · split
        · exact List.suffix_rfl
        · exact (ih t).trans (List.suffix_cons t ts)

/-- **Recovery only drops tokens from the front**, and at least one if there is one. -/
theorem synchronize_ahead (c : Cursor) :
    c.synchronize.ahead = [] ∨ ∃ t ts, c.ahead = t :: ts ∧ c.synchronize.ahead <:+ ts := by
  unfold synchronize
  split
  · rename_i h
    exact Or.inl h
  · rename_i t ts h
    exact Or.inr ⟨t, ts, h, settle_suffix t ts⟩

end Cursor

/-! ### Parsers -/

/-- The answer of a parser. -/
inductive Reply (α : Type)
  /-- A value and the cursor behind it. -/
  | done (value : α) (cursor : Cursor)
  /-- An error that ends the current declaration, and the cursor at which it was found. -/
  | failed (error : SyntaxError) (cursor : Cursor)
  /-- The fuel ran out. -/
  | starved

/-- A reader of tokens. -/
def Parser (α : Type) : Type := Cursor → Reply α

namespace Parser

variable {α β : Type}

/-- Reads nothing and answers with a value. -/
@[inline] protected def pure (a : α) : Parser α := fun c => .done a c

/-- Reads with one parser and goes on with another. -/
@[inline] protected def bind (p : Parser α) (f : α → Parser β) : Parser β := fun c =>
  match p c with
  | .done a c => f a c
  | .failed e c => .failed e c
  | .starved => .starved

instance : Monad Parser where
  pure := Parser.pure
  bind := Parser.bind

@[simp] theorem pure_apply (a : α) (c : Cursor) : (pure a : Parser α) c = .done a c := rfl

theorem bind_apply (p : Parser α) (f : α → Parser β) (c : Cursor) :
    (p >>= f) c =
      match p c with
      | .done a c => f a c
      | .failed e c => .failed e c
      | .starved => .starved := rfl

/-- The answer of a parser without fuel. -/
def starve : Parser α := fun _ => .starved

/-- The next token, which is not passed. -/
def peek : Parser Token := fun c => .done c.next c

/-- Passes the next token and answers with it; the end of the source is not passed. -/
def advance : Parser Token := fun c => .done c.next c.advance

/-- The place of the token read last. -/
def lastSpan : Parser Span := fun c => .done c.last.span c

/-- Ends the current declaration with an error. -/
def fail (e : SyntaxError) : Parser α := fun c => .failed e c

/-- Ends the current declaration with a fault at the next token. -/
def failHere (fault : SyntaxFault) : Parser α := fun c => .failed ⟨fault, c.next⟩ c

/-- Reports a fault at the next token and reads on. -/
def report (fault : SyntaxFault) : Parser Unit := fun c =>
  .done () { c with errors := ⟨fault, c.next⟩ :: c.errors }

/-- A free number for an expression; the counter goes on to the next one. -/
def freshId [W : Counter] : Parser ExprId := fun c =>
  .done c.supply.expr { c with supply := { c.supply with expr := Counter.next c.supply.expr } }

/-- A free label for a routine. -/
def freshLabel : Parser Nat := fun c =>
  .done c.supply.routine { c with supply := { c.supply with routine := c.supply.routine + 1 } }

/-- Whether the next token has a kind. -/
def check (kind : TokenKind) : Parser Bool := fun c => .done (c.next.kind == kind) c

/-- Whether no token is ahead. -/
def atEnd : Parser Bool := fun c => .done c.ahead.isEmpty c

/-- Passes the next token if it has a kind, and tells whether it had. -/
def accept (kind : TokenKind) : Parser Bool := fun c =>
  if c.next.kind = kind then .done true c.advance else .done false c

/-- Passes the next token, which must have a kind, and answers with its place. -/
def expect (kind : TokenKind) (place : Place) : Parser Span := fun c =>
  if c.next.kind = kind then .done c.next.span c.advance
  else .failed ⟨.expectedToken kind place, c.next⟩ c

/-- Passes the next token, which must be a name, and answers with the name and its place. -/
def expectName (role : NameRole) : Parser (String × Span) := fun c =>
  if c.next.kind = .identifier then .done (c.next.lexeme, c.next.span) c.advance
  else .failed ⟨.expectedName role, c.next⟩ c

/-- The mark of an expression that has just been read. -/
def mark [W : Counter] (span : Span) : Parser Mark := do
  let id ← freshId
  pure ⟨id, span⟩

/-- The stretch from a place to the token read last. -/
def spanFrom (start : Span) : Parser Span := do
  let last ← lastSpan
  pure (start.through last)

/-- Reads with a parser.  If it fails, its error is reported, and reading goes on at the next
boundary between statements. -/
def recover (p : Parser α) : Parser (Option α) := fun c =>
  match p c with
  | .done a c => .done (some a) c
  | .failed e c => .done none { c with errors := e :: c.errors }.synchronize
  | .starved => .starved

end Parser

end Scriptlet
