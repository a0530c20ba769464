/-
**Reading by number.**

A reader holds a list of tokens that ends with an end of the source, and the number of the next
token.  It looks at tokens by their numbers, and there may be none of a number: then it is lost.
Nothing but the kind of a token keeps it from going on behind the end of the source.

A `Tape` remembers where its reader stood whenever it looked at a token, and from where to where
each call for a declaration took it.  The grammar is that of the parser, function by function.

Main definitions:

* `Scriptlet.withEnd`, `Scriptlet.endIndex` — a list of tokens with an end, and the number of the
  first end of the source in it;
* `Scriptlet.Tape`, `Scriptlet.Tape.Answer`, `Scriptlet.Reader` — readers and their answers;
* `Scriptlet.Reader.peek`, `Scriptlet.Reader.previous`, `Scriptlet.Reader.advance`,
  `Scriptlet.Reader.synchronize`, … — single steps, by number;
* `Scriptlet.Reader.expression`, `Scriptlet.Reader.statement`, `Scriptlet.Reader.declarations`, … —
  the grammar;
* `Scriptlet.Reader.program` — **the program of a list of tokens, or all errors in it, read by
  number**.
-/

import Scriptlet.Program.Parse

set_option relaxedAutoImplicit false
set_option autoImplicit false

namespace Scriptlet

/-! ### Tapes -/

/-- A list of tokens with an end: if the last one is no end of the source, one is put behind it. -/
def withEnd (ts : List Token) : List Token :=
  match ts.getLast? with
  | some t =>
      if t.kind = .endOfSource then ts else ts ++ [.finish ⟨t.span.stop, 0, t.span.line⟩]
  | none => [.finish ⟨0, 0, 1⟩]

/-- The number of the first end of the source in a list of tokens with an end. -/
def endIndex (ts : List Token) : Nat := (withEnd ts).findIdx fun t => !Cursor.isInner t

/-- A list of tokens that is read by number. -/
structure Tape where
  /-- The tokens, which stay as they are. -/
  tokens : List Token
  /-- The number of the next token. -/
  current : Nat
  /-- The numbers that are still free. -/
  supply : Supply
  /-- The errors reported so far, the newest first. -/
  errors : List SyntaxError
  /-- Where the reader stood when it looked at a token, the newest first. -/
  trail : List Nat
  /-- From where to where each call for a declaration took it, the newest first. -/
  calls : List (Nat × Nat)

/-- The tape in front of a list of tokens. -/
def Tape.start (ts : List Token) (supply : Supply) : Tape := ⟨withEnd ts, 0, supply, [], [], []⟩

/-- The answer of a reader. -/
inductive Tape.Answer (α : Type)
  /-- A value and the tape behind it. -/
  | done (value : α) (tape : Tape)
  /-- An error that ends the current declaration, and the tape at which it was found. -/
  | failed (error : SyntaxError) (tape : Tape)
  /-- The fuel ran out. -/
  | starved
  /-- There is no token of the number that was looked for. -/
  | lost

/-- The tape that an answer leaves behind, if it leaves one. -/
def Tape.Answer.tape? {α : Type} : Tape.Answer α → Option Tape
  | .done _ t => some t
  | .failed _ t => some t
  | .starved => none
  | .lost => none

/-- A reader of a tape. -/
def Reader (α : Type) : Type := Tape → Tape.Answer α

namespace Reader

variable {α β : Type}

/-! ### Single steps -/

/-- Reads nothing and answers with a value. -/
@[inline] protected def pure (a : α) : Reader α := fun t => .done a t

/-- Reads with one reader and goes on with another. -/
@[inline] protected def bind (r : Reader α) (f : α → Reader β) : Reader β := fun t =>
  match r t with
  | .done a t => f a t
  | .failed e t => .failed e t
  | .starved => .starved
  | .lost => .lost

instance : Monad Reader where
  pure := Reader.pure
  bind := Reader.bind

theorem bind_apply (r : Reader α) (f : α → Reader β) (t : Tape) :
    (r >>= f) t =
      match r t with
      | .done a t => f a t
      | .failed e t => .failed e t
      | .starved => .starved
      | .lost => .lost := rfl

/-- The answer of a reader without fuel. -/
def starve : Reader α := fun _ => .starved

/-- Looks at the token as many places back as is said, but not before the first one. -/
def look (back : Nat) : Reader Token := fun t =>
  match t.tokens[t.current - back]? with
  | some token => .done token { t with trail := t.current :: t.trail }
  | none => .lost

/-- The next token. -/
def peek : Reader Token := look 0

/-- The token read last; before the first one, the first one. -/
def previous : Reader Token := look 1

/-- Whether the next token is the end of the source. -/
def isAtEnd : Reader Bool := do
  let token ← peek
  pure (token.kind == .endOfSource)

/-- Goes to the next number. -/
def step : Reader Unit := fun t => .done () { t with current := t.current + 1 }

/-- Goes on unless the next token is the end of the source, and answers with the token read last. -/
def advance : Reader Token := do
  if ← isAtEnd then
    previous
  else
    let _ ← step
    previous

/-- Whether the next token has a kind. -/
def check (kind : TokenKind) : Reader Bool := do
  let token ← peek
  pure (token.kind == kind)

/-- Goes on if the next token has a kind, and tells whether it had. -/
def accept (kind : TokenKind) : Reader Bool := do
  if ← check kind then
    let _ ← advance
    pure true
  else
    pure false

/-- Ends the current declaration with an error. -/
def fail (e : SyntaxError) : Reader α := fun t => .failed e t

/-- Ends the current declaration with a fault at the next token. -/
def failHere (fault : SyntaxFault) : Reader α := do
  let token ← peek
  fail ⟨fault, token⟩

/-- Adds an error to those reported. -/
def record (e : SyntaxError) : Reader Unit := fun t => .done () { t with errors := e :: t.errors }

/-- Reports a fault at the next token and reads on. -/
def report (fault : SyntaxFault) : Reader Unit := do
  let token ← peek
  record ⟨fault, token⟩

/-- Passes the next token, which must have a kind, and answers with its place. -/
def expect (kind : TokenKind) (place : Place) : Reader Span := do
  if ← check kind then
    let token ← advance
    pure token.span
  else
    failHere (.expectedToken kind place)

/-- Passes the next token, which must be a name, and answers with the name and its place. -/
def expectName (role : NameRole) : Reader (String × Span) := do
  if ← check .identifier then
    let token ← advance
    pure (token.lexeme, token.span)
  else
    failHere (.expectedName role)

/-- A free number for an expression. -/
def freshId : Reader ExprId := fun t =>
  .done t.supply.expr { t with supply := { t.supply with expr := t.supply.expr + 1 } }

/-- A free label for a routine. -/
def freshLabel : Reader Nat := fun t =>
  .done t.supply.routine { t with supply := { t.supply with routine := t.supply.routine + 1 } }

/-- The mark of an expression that has just been read. -/
def mark (span : Span) : Reader Mark := do
  let id ← freshId
  pure ⟨id, span⟩

/-- The stretch from a place to the token read last. -/
def spanFrom (start : Span) : Reader Span := do
  let last ← previous
  pure (start.through last.span)

/-- The errors reported so far. -/
def reported : Reader (List SyntaxError) := fun t => .done t.errors t

/-- Remembers from where to where a reader goes. -/
def counted (r : Reader α) : Reader α := fun t =>
  match r t with
  | .done a t' => .done a { t' with calls := (t.current, t'.current) :: t'.calls }
  | answer => answer

/-- Goes on until the token read last is a semicolon, or the next one starts a statement or is the
end of the source. -/
def settle : Nat → Reader Unit
  | 0 => starve
  | fuel + 1 => do
      if ← isAtEnd then
        pure ()
      else
        let last ← previous
        if last.kind = .semicolon then
          pure ()
        else
          let token ← peek
          if token.kind.startsStatement then
            pure ()
          else
            let _ ← advance
            settle fuel

/-- The number of tokens on the tape. -/
def size : Reader Nat := fun t => .done t.tokens.length t

/-- Goes on after an error: one token is passed, and then every token up to a boundary between
statements. -/
def synchronize : Reader Unit := do
  let _ ← advance
  let count ← size
  settle count

/-- Reads with a reader.  If it fails, its error is reported, and reading goes on at the next
boundary between statements. -/
def recover (r : Reader α) : Reader (Option α) := fun t =>
  match r t with
  | .done a t => .done (some a) t
  | .failed e t => (do
      let _ ← record e
      let _ ← synchronize
      pure none : Reader (Option α)) t
  | .starved => .starved
  | .lost => .lost

/-! ### Expressions -/

mutual

/-- An expression: an assignment, or a choice between two assignments. -/
def expression : Nat → Reader Expr
  | 0 => starve
  | fuel + 1 => do
      let condition ← assignment fuel
      let question ← peek
      if question.kind = .question then
        let _ ← advance
        let thenBranch ← assignment fuel
        if ← accept .colon then
          let elseBranch ← assignment fuel
          let mark ← mark (condition.span.through elseBranch.span)
          pure (.ternary mark condition question.span thenBranch elseBranch)
        else
          fail ⟨.ternaryWithoutColon, question⟩
      else
        pure condition

/-- An assignment, or an expression of operators. -/
def assignment : Nat → Reader Expr
  | 0 => starve
  | fuel + 1 => do
      let target ← operand fuel (some .disjunction)
      let equals ← peek
      if equals.kind = .equal then
        let _ ← advance
        let value ← assignment fuel
        match target with
        | .variable _ name =>
            let mark ← mark (target.span.through value.span)
            pure (.assign mark name value)
        | .get _ object name =>
            let mark ← mark (target.span.through value.span)
            pure (.set mark object name value)
        | _ => fail ⟨.invalidAssignmentTarget, equals⟩
      else
        pure target

/-- An operand of the operators looser than a level: operands and operators of that level, or, when
no level is tighter, an operand with operators in front. -/
def operand : Nat → Option Level → Reader Expr
  | 0, _ => starve
  | fuel + 1, some level => do
      let left ← operand fuel level.tighter?
      joins fuel level left
  | fuel + 1, none => unary fuel

/-- What follows an operand on a level: operators of the level, each with an operand. -/
def joins : Nat → Level → Expr → Reader Expr
  | 0, _, _ => starve
  | fuel + 1, level, left => do
      let operator ← peek
      match level.join? operator.kind with
      | some join =>
          let _ ← advance
          let right ← operand fuel level.tighter?
          let mark ← mark (left.span.through right.span)
          joins fuel level (join.expr mark left operator.span right)
      | none => pure left

/-- An operand with operators in front. -/
def unary : Nat → Reader Expr
  | 0 => starve
  | fuel + 1 => do
      let operator ← peek
      match UnaryOp.ofKind? operator.kind with
      | some op =>
          let _ ← advance
          let operand ← unary fuel
          let mark ← mark (operator.span.through operand.span)
          pure (.unary mark op operand)
      | none =>
          let callee ← primary fuel
          suffixes fuel callee

/-- What follows an operand: calls and properties. -/
def suffixes : Nat → Expr → Reader Expr
  | 0, _ => starve
  | fuel + 1, callee => do
      if ← accept .leftParen then
        let arguments ← argumentList fuel
        let paren ← expect .rightParen .afterArguments
        let mark ← mark (callee.span.through paren)
        suffixes fuel (.call mark callee arguments paren)
      else if ← accept .dot then
        let (name, nameSpan) ← expectName .property
        let mark ← mark (callee.span.through nameSpan)
        suffixes fuel (.get mark callee name)
      else
        pure callee

/-- The arguments of a call, up to the closing parenthesis. -/
def argumentList : Nat → Reader (List Expr)
  | 0 => starve
  | fuel + 1 => do
      if ← check .rightParen then pure [] else arguments fuel 0

/-- The arguments of a call, at least one, after `count` others. -/
def arguments : Nat → Nat → Reader (List Expr)
  | 0, _ => starve
  | fuel + 1, count => do
      if arityLimit ≤ count then report (.tooMany .arguments)
      let argument ← expression fuel
      if ← accept .comma then
        let others ← arguments fuel (count + 1)
        pure (argument :: others)
      else
        pure [argument]

/-- A literal, a name, or an expression in parentheses. -/
def primary : Nat → Reader Expr
  | 0 => starve
  | fuel + 1 => do
      let token ← peek
      match token.kind with
      | .number | .string | .trueWord | .falseWord | .nilWord =>
          match Constant.ofToken? token with
          | some value =>
              let _ ← advance
              let mark ← mark token.span
              pure (.constant mark value)
          | none => fail ⟨.malformedLiteral, token⟩
      | .thisWord =>
          let _ ← advance
          let mark ← mark token.span
          pure (.thisRef mark)
      | .superWord =>
          let _ ← advance
          let _ ← expect .dot .afterSuper
          let (method, methodSpan) ← expectName .superMethod
          let mark ← mark (token.span.through methodSpan)
          pure (.superRef mark method)
      | .identifier =>
          let _ ← advance
          let mark ← mark token.span
          pure (.variable mark token.lexeme)
      | .leftParen =>
          let _ ← advance
          let inner ← expression fuel
          let close ← expect .rightParen .afterExpression
          let mark ← mark (token.span.through close)
          pure (.grouping mark inner)
      | _ => fail ⟨.expectedExpression, token⟩

end

/-! ### Declarations and statements -/

/-- The parameters of a routine, at least one, after `count` others. -/
def parameters : Nat → Nat → Reader (List Param)
  | 0, _ => starve
  | fuel + 1, count => do
      if arityLimit ≤ count then report (.tooMany .parameters)
      let (name, span) ← expectName .parameter
      if ← accept .comma then
        let others ← parameters fuel (count + 1)
        pure (⟨name, span⟩ :: others)
      else
        pure [⟨name, span⟩]

/-- The parameters of a routine, up to the closing parenthesis. -/
def parameterList (fuel : Nat) : Reader (List Param) := do
  if ← check .rightParen then pure [] else parameters fuel 0

/-- The superclass in a class declaration, if it has one. -/
def superclass : Reader (Option Superclass) := do
  if ← accept .less then
    let (name, span) ← expectName .superclass
    let mark ← mark span
    pure (some ⟨mark, name⟩)
  else
    pure none

/-- A variable declaration. -/
def variableDeclaration (fuel : Nat) : Reader Decl := do
  let keyword ← peek
  let _ ← advance
  let (name, nameSpan) ← expectName .variable
  let initializer ←
    if ← accept .equal then
      let value ← expression fuel
      pure (some value)
    else
      pure none
  let _ ← expect .semicolon .afterVariable
  let span ← spanFrom keyword.span
  pure (.varDecl name nameSpan initializer span)

/-- An expression that stands as a statement; the semicolon is not part of its place. -/
def expressionStatement (fuel : Nat) : Reader Stmt := do
  let expr ← expression fuel
  let _ ← expect .semicolon .afterExpression
  pure (.expression expr expr.span)

/-- A statement that prints a value. -/
def printStatement (fuel : Nat) : Reader Stmt := do
  let keyword ← peek
  let _ ← advance
  let expr ← expression fuel
  let _ ← expect .semicolon .afterPrinted
  let span ← spanFrom keyword.span
  pure (.print expr span)

/-- A statement that ends a call. -/
def returnStatement (fuel : Nat) : Reader Stmt := do
  let keyword ← peek
  let _ ← advance
  let value ←
    if ← check .semicolon then
      pure none
    else
      let value ← expression fuel
      pure (some value)
  let _ ← expect .semicolon .afterReturned
  let span ← spanFrom keyword.span
  pure (.ret keyword.span value span)

/-- The initialiser of a `for` loop, with its semicolon. -/
def loopInitializer (fuel : Nat) : Reader (Option Decl) := do
  if ← accept .semicolon then
    pure none
  else if ← check .varWord then
    let decl ← variableDeclaration fuel
    pure (some decl)
  else
    let stmt ← expressionStatement fuel
    pure (some (.statement stmt))

/-- The condition of a `for` loop, with its semicolon; without one the loop has no end. -/
def loopCondition (fuel : Nat) : Reader Expr := do
  let condition ←
    if ← check .semicolon then
      let token ← peek
      let mark ← mark token.span
      pure (.constant mark (.bool true))
    else
      expression fuel
  let _ ← expect .semicolon .afterLoopCondition
  pure condition

/-- The increment of a `for` loop, with the closing parenthesis. -/
def loopIncrement (fuel : Nat) : Reader (Option Expr) := do
  let increment ←
    if ← check .rightParen then
      pure none
    else
      let expr ← expression fuel
      pure (some expr)
  let _ ← expect .rightParen .afterForClauses
  pure increment

mutual

/-- A declaration.  One that cannot be read is reported and skipped. -/
def declaration : Nat → Reader (Option Decl)
  | 0 => starve
  | fuel + 1 => recover (wholeDeclaration fuel)

/-- A declaration that can be read. -/
def wholeDeclaration : Nat → Reader Decl
  | 0 => starve
  | fuel + 1 => do
      let token ← peek
      match token.kind with
      | .classWord =>
          let _ ← advance
          let (name, nameSpan) ← expectName .classDecl
          let parent ← superclass
          let _ ← expect .leftBrace .beforeClassBody
          let methods ← methods fuel
          let _ ← expect .rightBrace .afterClassBody
          let span ← spanFrom token.span
          pure (.classDecl name nameSpan parent methods span)
      | .funWord =>
          let _ ← advance
          let routine ← routine fuel .function
          let span ← spanFrom token.span
          pure (.funDecl routine span)
      | .varWord => variableDeclaration fuel
      | _ =>
          let stmt ← statement fuel
          pure (.statement stmt)

/-- The methods of a class, up to the closing brace. -/
def methods : Nat → Reader (List Routine)
  | 0 => starve
  | fuel + 1 => do
      if (← check .rightBrace) || (← isAtEnd) then
        pure []
      else
        let method ← routine fuel .method
        let others ← methods fuel
        pure (method :: others)

/-- A routine, from its name on. -/
def routine : Nat → RoutineRole → Reader Routine
  | 0, _ => starve
  | fuel + 1, role => do
      let (name, nameSpan) ← expectName (.routine role)
      let _ ← expect .leftParen (.afterRoutineName role)
      let params ← parameterList fuel
      let _ ← expect .rightParen .afterParameters
      let _ ← expect .leftBrace (.beforeRoutineBody role)
      let body ← blockBody fuel
      let span ← spanFrom nameSpan
      let label ← freshLabel
      pure (.mk label name params body span)

/-- The declarations of a block, with its closing brace. -/
def blockBody : Nat → Reader (List Decl)
  | 0 => starve
  | fuel + 1 => do
      let body ← declarations fuel true
      let _ ← expect .rightBrace .afterBlock
      pure body

/-- The declarations up to the end of the source, or of the block around. -/
def declarations : Nat → Bool → Reader (List Decl)
  | 0, _ => starve
  | fuel + 1, inBlock => do
      let closed ← check .rightBrace
      if (inBlock && closed) || (← isAtEnd) then
        pure []
      else
        let decl ← counted (declaration fuel)
        let others ← declarations fuel inBlock
        pure (decl.toList ++ others)

/-- A statement. -/
def statement : Nat → Reader Stmt
  | 0 => starve
  | fuel + 1 => do
      let token ← peek
      match token.kind with
      | .printWord => printStatement fuel
      | .returnWord => returnStatement fuel
      | .leftBrace =>
          let _ ← advance
          let body ← blockBody fuel
          let span ← spanFrom token.span
          pure (.block body span)
      | .ifWord =>
          let _ ← advance
          let _ ← expect .leftParen .afterIf
          let condition ← expression fuel
          let _ ← expect .rightParen .afterIfCondition
          let thenBranch ← statement fuel
          let elseBranch ←
            if ← accept .elseWord then
              let stmt ← statement fuel
              pure (some stmt)
            else
              pure none
          let span ← spanFrom token.span
          pure (.ifElse condition thenBranch elseBranch span)
      | .whileWord =>
          let _ ← advance
          let _ ← expect .leftParen .afterWhile
          let condition ← expression fuel
          let _ ← expect .rightParen .afterWhileCondition
          let body ← statement fuel
          let span ← spanFrom token.span
          pure (.whileLoop condition body span)
      | .forWord =>
          let _ ← advance
          let _ ← expect .leftParen .afterFor
          let initializer ← loopInitializer fuel
          let condition ← loopCondition fuel
          let increment ← loopIncrement fuel
          let body ← statement fuel
          let span ← spanFrom token.span
          pure (Parser.forLoop initializer condition increment body span)
      | _ => expressionStatement fuel

end

/-- **The program of a list of tokens, or all errors in it, read by number.** -/
def program (fuel : Nat) : Reader (Except (List SyntaxError) Program) := do
  let decls ← declarations fuel false
  let errors ← reported
  pure (if errors.isEmpty then .ok ⟨decls⟩ else .error errors.reverse)

end Reader

end Scriptlet
