/-
**From tokens to programs.**

Declarations, statements and expressions are read by recursive descent.  Operators between two
operands have six levels, from `or` to `*`, and each groups to the left; above them stand
assignment, which groups to the right, and the choice `c ? x : y`, whose parts are assignments.
An expression is numbered when it has been read in full, after its parts, by whichever counter is
given.

A declaration that cannot be read is reported and skipped, so that one reading finds many errors.
`Program.parse` answers with the program only if there is none.

Main definitions:

* `Scriptlet.Level`, `Scriptlet.Join` — the levels of the operators between two operands;
* `Scriptlet.Parser.expression`, `Scriptlet.Parser.statement`, `Scriptlet.Parser.declaration`,
  `Scriptlet.Parser.declarations` — the grammar, with fuel bounding the depth of the recursion;
* `Scriptlet.Program.fuelFor`, `Scriptlet.Program.parse` — **the program of a list of tokens, or
  all errors in it**, with the fuel that its length calls for.
-/

import Scriptlet.Program.Cursor

set_option relaxedAutoImplicit false
set_option autoImplicit false

namespace Scriptlet

/-! ### Operators between two operands -/

/-- The levels of the operators between two operands, the loosest first. -/
inductive Level
  | disjunction
  | conjunction
  | equality
  | comparison
  | sum
  | product
deriving DecidableEq, Repr

/-- The next tighter level. -/
def Level.tighter? : Level → Option Level
  | .disjunction => some .conjunction
  | .conjunction => some .equality
  | .equality => some .comparison
  | .comparison => some .sum
  | .sum => some .product
  | .product => none

/-- An operator between two operands. -/
inductive Join
  | logical (op : LogicalOp)
  | binary (op : BinaryOp)
deriving DecidableEq, Repr

/-- The operator of a level that a token stands for. -/
def Level.join? : Level → TokenKind → Option Join
  | .disjunction, .orWord => some (.logical .or)
  | .conjunction, .andWord => some (.logical .and)
  | .equality, .equalEqual => some (.binary .equal)
  | .equality, .bangEqual => some (.binary .notEqual)
  | .comparison, .greater => some (.binary .greater)
  | .comparison, .greaterEqual => some (.binary .greaterEqual)
  | .comparison, .less => some (.binary .less)
  | .comparison, .lessEqual => some (.binary .lessEqual)
  | .sum, .plus => some (.binary .add)
  | .sum, .minus => some (.binary .subtract)
  | .product, .star => some (.binary .multiply)
  | .product, .slash => some (.binary .divide)
  | _, _ => none

/-- The expression of two operands and the operator between them. -/
def Join.expr (join : Join) (mark : Mark) (left : Expr) (opSpan : Span) (right : Expr) : Expr :=
  match join with
  | .logical op => .logical mark left op right
  | .binary op => .binary mark left op opSpan right

/-- The operator in front of an operand that a token stands for. -/
def UnaryOp.ofKind? : TokenKind → Option UnaryOp
  | .bang => some .not
  | .minus => some .negate
  | _ => none

/-- The value of a token that stands for a value, if its kind is that of a literal or of a literal
word.  The value of a literal is that of its token, whichever of the two kinds it has. -/
def Constant.ofToken? (t : Token) : Option Constant :=
  match t.kind with
  | .number | .string =>
      match t.literal with
      | some (.number x) => some (.number x)
      | some (.string s) => some (.string s)
      | none => none
  | .trueWord => some (.bool true)
  | .falseWord => some (.bool false)
  | .nilWord => some .nil
  | _ => none

namespace Parser

variable [W : Counter]

/-! ### Expressions -/

mutual

/-- An expression: an assignment, or a choice between two assignments. -/
def expression : Nat → Parser Expr
  | 0 => starve
  | fuel + 1 => do
      let condition ← assignment fuel
      let question ← peek
      if question.kind = .question then
        let _ ← advance
        let thenBranch ← assignment fuel
        if ← accept .colon then
          let elseBranch ← assignment fuel
          let mark ← mark (condition.span.through elseBranch.span)
          pure (.ternary mark condition question.span thenBranch elseBranch)
        else
          fail ⟨.ternaryWithoutColon, question⟩
      else
        pure condition

/-- An assignment, or an expression of operators. -/
def assignment : Nat → Parser Expr
  | 0 => starve
  | fuel + 1 => do
      let target ← operand fuel (some .disjunction)
      let equals ← peek
      if equals.kind = .equal then
        let _ ← advance
        let value ← assignment fuel
        match target with
        | .variable _ name =>
            let mark ← mark (target.span.through value.span)
            pure (.assign mark name value)
        | .get _ object name =>
            let mark ← mark (target.span.through value.span)
            pure (.set mark object name value)
        | _ => fail ⟨.invalidAssignmentTarget, equals⟩
      else
        pure target

/-- An operand of the operators looser than a level: operands and operators of that level, or, when
no level is tighter, an operand with operators in front. -/
def operand : Nat → Option Level → Parser Expr
  | 0, _ => starve
  | fuel + 1, some level => do
      let left ← operand fuel level.tighter?
      joins fuel level left
  | fuel + 1, none => unary fuel

/-- What follows an operand on a level: operators of the level, each with an operand. -/
def joins : Nat → Level → Expr → Parser Expr
  | 0, _, _ => starve
  | fuel + 1, level, left => do
      let operator ← peek
      match level.join? operator.kind with
      | some join =>
          let _ ← advance
          let right ← operand fuel level.tighter?
          let mark ← mark (left.span.through right.span)
          joins fuel level (join.expr mark left operator.span right)
      | none => pure left

/-- An operand with operators in front. -/
def unary : Nat → Parser Expr
  | 0 => starve
  | fuel + 1 => do
      let operator ← peek
      match UnaryOp.ofKind? operator.kind with
      | some op =>
          let _ ← advance
          let operand ← unary fuel
          let mark ← mark (operator.span.through operand.span)
          pure (.unary mark op operand)
      | none =>
          let callee ← primary fuel
          suffixes fuel callee

/-- What follows an operand: calls and properties. -/
def suffixes : Nat → Expr → Parser Expr
  | 0, _ => starve
  | fuel + 1, callee => do
      if ← accept .leftParen then
        let arguments ← argumentList fuel
        let paren ← expect .rightParen .afterArguments
        let mark ← mark (callee.span.through paren)
        suffixes fuel (.call mark callee arguments paren)
      else if ← accept .dot then
        let (name, nameSpan) ← expectName .property
        let mark ← mark (callee.span.through nameSpan)
        suffixes fuel (.get mark callee name)
      else
        pure callee

/-- The arguments of a call, up to the closing parenthesis. -/
def argumentList : Nat → Parser (List Expr)
  | 0 => starve
  | fuel + 1 => do
      if ← check .rightParen then pure [] else arguments fuel 0

/-- The arguments of a call, at least one, after `count` others. -/
def arguments : Nat → Nat → Parser (List Expr)
  | 0, _ => starve
  | fuel + 1, count => do
      if arityLimit ≤ count then report (.tooMany .arguments)
      let argument ← expression fuel
      if ← accept .comma then
        let others ← arguments fuel (count + 1)
        pure (argument :: others)
      else
        pure [argument]

/-- A literal, a name, or an expression in parentheses. -/
def primary : Nat → Parser Expr
  | 0 => starve
  | fuel + 1 => do
      let token ← peek
      match token.kind with
      | .number | .string | .trueWord | .falseWord | .nilWord =>
          match Constant.ofToken? token with
          | some value =>
              let _ ← advance
              let mark ← mark token.span
              pure (.constant mark value)
          | none => fail ⟨.malformedLiteral, token⟩
      | .thisWord =>
          let _ ← advance
          let mark ← mark token.span
          pure (.thisRef mark)
      | .superWord =>
          let _ ← advance
          let _ ← expect .dot .afterSuper
          let (method, methodSpan) ← expectName .superMethod
          let mark ← mark (token.span.through methodSpan)
          pure (.superRef mark method)
      | .identifier =>
          let _ ← advance
          let mark ← mark token.span
          pure (.variable mark token.lexeme)
      | .leftParen =>
          let _ ← advance
          let inner ← expression fuel
          let close ← expect .rightParen .afterExpression
          let mark ← mark (token.span.through close)
          pure (.grouping mark inner)
      | _ => fail ⟨.expectedExpression, token⟩

end

/-! ### Declarations and statements -/

/-- The parameters of a routine, at least one, after `count` others. -/
def parameters : Nat → Nat → Parser (List Param)
  | 0, _ => starve
  | fuel + 1, count => do
      if arityLimit ≤ count then report (.tooMany .parameters)
      let (name, span) ← expectName .parameter
      if ← accept .comma then
        let others ← parameters fuel (count + 1)
        pure (⟨name, span⟩ :: others)
      else
        pure [⟨name, span⟩]

/-- The parameters of a routine, up to the closing parenthesis. -/
def parameterList (fuel : Nat) : Parser (List Param) := do
  if ← check .rightParen then pure [] else parameters fuel 0

/-- The superclass in a class declaration, if it has one. -/
def superclass : Parser (Option Superclass) := do
  if ← accept .less then
    let (name, span) ← expectName .superclass
    let mark ← mark span
    pure (some ⟨mark, name⟩)
  else
    pure none

/-- A variable declaration. -/
def variableDeclaration (fuel : Nat) : Parser Decl := do
  let keyword ← advance
  let (name, nameSpan) ← expectName .variable
  let initializer ←
    if ← accept .equal then
      let value ← expression fuel
      pure (some value)
    else
      pure none
  let _ ← expect .semicolon .afterVariable
  let span ← spanFrom keyword.span
  pure (.varDecl name nameSpan initializer span)

/-- An expression that stands as a statement; the semicolon is not part of its place. -/
def expressionStatement (fuel : Nat) : Parser Stmt := do
  let expr ← expression fuel
  let _ ← expect .semicolon .afterExpression
  pure (.expression expr expr.span)

/-- A statement that prints a value. -/
def printStatement (fuel : Nat) : Parser Stmt := do
  let keyword ← advance
  let expr ← expression fuel
  let _ ← expect .semicolon .afterPrinted
  let span ← spanFrom keyword.span
  pure (.print expr span)

/-- A statement that ends a call. -/
def returnStatement (fuel : Nat) : Parser Stmt := do
  let keyword ← advance
  let value ←
    if ← check .semicolon then
      pure none
    else
      let value ← expression fuel
      pure (some value)
  let _ ← expect .semicolon .afterReturned
  let span ← spanFrom keyword.span
  pure (.ret keyword.span value span)

/-- The initialiser of a `for` loop, with its semicolon. -/
def loopInitializer (fuel : Nat) : Parser (Option Decl) := do
  if ← accept .semicolon then
    pure none
  else if ← check .varWord then
    let decl ← variableDeclaration fuel
    pure (some decl)
  else
    let stmt ← expressionStatement fuel
    pure (some (.statement stmt))

/-- The condition of a `for` loop, with its semicolon; without one the loop has no end. -/
def loopCondition (fuel : Nat) : Parser Expr := do
  let condition ←
    if ← check .semicolon then
      let token ← peek
      let mark ← mark token.span
      pure (.constant mark (.bool true))
    else
      expression fuel
  let _ ← expect .semicolon .afterLoopCondition
  pure condition

/-- The increment of a `for` loop, with the closing parenthesis. -/
def loopIncrement (fuel : Nat) : Parser (Option Expr) := do
  let increment ←
    if ← check .rightParen then
      pure none
    else
      let expr ← expression fuel
      pure (some expr)
  let _ ← expect .rightParen .afterForClauses
  pure increment

/-- **The block that a `for` loop stands for**: the initialiser, then a `while` loop whose body is
the body of the loop and then the increment. -/
def forLoop (initializer : Option Decl) (condition : Expr) (increment : Option Expr) (body : Stmt)
    (span : Span) : Stmt :=
  let step := increment.toList.map fun e => Decl.statement (.expression e e.span)
  let loop := Stmt.whileLoop condition (.block (.statement body :: step) span) span
  .block (initializer.toList ++ [.statement loop]) span

mutual

/-- A declaration.  One that cannot be read is reported and skipped. -/
def declaration : Nat → Parser (Option Decl)
  | 0 => starve
  | fuel + 1 => recover (wholeDeclaration fuel)

/-- A declaration that can be read. -/
def wholeDeclaration : Nat → Parser Decl
  | 0 => starve
  | fuel + 1 => do
      let token ← peek
      match token.kind with
      | .classWord =>
          let _ ← advance
          let (name, nameSpan) ← expectName .classDecl
          let parent ← superclass
          let _ ← expect .leftBrace .beforeClassBody
          let methods ← methods fuel
          let _ ← expect .rightBrace .afterClassBody
          let span ← spanFrom token.span
          pure (.classDecl name nameSpan parent methods span)
      | .funWord =>
          let _ ← advance
          let routine ← routine fuel .function
          let span ← spanFrom token.span
          pure (.funDecl routine span)
      | .varWord => variableDeclaration fuel
      | _ =>
          let stmt ← statement fuel
          pure (.statement stmt)

/-- The methods of a class, up to the closing brace. -/
def methods : Nat → Parser (List Routine)
  | 0 => starve
  | fuel + 1 => do
      if (← check .rightBrace) || (← atEnd) then
        pure []
      else
        let method ← routine fuel .method
        let others ← methods fuel
        pure (method :: others)

/-- A routine, from its name on. -/
def routine : Nat → RoutineRole → Parser Routine
  | 0, _ => starve
  | fuel + 1, role => do
      let (name, nameSpan) ← expectName (.routine role)
      let _ ← expect .leftParen (.afterRoutineName role)
      let params ← parameterList fuel
      let _ ← expect .rightParen .afterParameters
      let _ ← expect .leftBrace (.beforeRoutineBody role)
      let body ← blockBody fuel
      let span ← spanFrom nameSpan
      let label ← freshLabel
      pure (.mk label name params body span)

/-- The declarations of a block, with its closing brace. -/
def blockBody : Nat → Parser (List Decl)
  | 0 => starve
  | fuel + 1 => do
      let body ← declarations fuel true
      let _ ← expect .rightBrace .afterBlock
      pure body

/-- The declarations up to the end of the source, or of the block around. -/
def declarations : Nat → Bool → Parser (List Decl)
  | 0, _ => starve
  | fuel + 1, inBlock => do
      let closed ← check .rightBrace
      if (inBlock && closed) || (← atEnd) then
        pure []
      else
        let decl ← declaration fuel
        let others ← declarations fuel inBlock
        pure (decl.toList ++ others)

/-- A statement. -/
def statement : Nat → Parser Stmt
  | 0 => starve
  | fuel + 1 => do
      let token ← peek
      match token.kind with
      | .printWord => printStatement fuel
      | .returnWord => returnStatement fuel
      | .leftBrace =>
          let _ ← advance
          let body ← blockBody fuel
          let span ← spanFrom token.span
          pure (.block body span)
      | .ifWord =>
          let _ ← advance
          let _ ← expect .leftParen .afterIf
          let condition ← expression fuel
          let _ ← expect .rightParen .afterIfCondition
          let thenBranch ← statement fuel
          let elseBranch ←
            if ← accept .elseWord then
              let stmt ← statement fuel
              pure (some stmt)
            else
              pure none
          let span ← spanFrom token.span
          pure (.ifElse condition thenBranch elseBranch span)
      | .whileWord =>
          let _ ← advance
          let _ ← expect .leftParen .afterWhile
          let condition ← expression fuel
          let _ ← expect .rightParen .afterWhileCondition
          let body ← statement fuel
          let span ← spanFrom token.span
          pure (.whileLoop condition body span)
      | .forWord =>
          let _ ← advance
          let _ ← expect .leftParen .afterFor
          let initializer ← loopInitializer fuel
          let condition ← loopCondition fuel
          let increment ← loopIncrement fuel
          let body ← statement fuel
          let span ← spanFrom token.span
          pure (forLoop initializer condition increment body span)
      | _ => expressionStatement fuel

end

end Parser

/-! ### Programs -/

namespace Program

/-- Fuel for the deepest recursion that a list of tokens can call for: fewer than twenty steps lie
between one token and the next. -/
def fuelFor (ts : List Token) : Nat := 20 * (ts.length + 2)

/-- **The program of a list of tokens, or all errors in it**, and the numbers still free. -/
def parse [W : Counter] (ts : List Token) (supply : Supply) :
    Except (List SyntaxError) Program × Supply :=
  match Parser.declarations (fuelFor ts) false (Cursor.ofTokens ts supply) with
  | .done decls c =>
      match c.errors with
      | [] => (.ok ⟨decls⟩, c.supply)
      | errors => (.error errors.reverse, c.supply)
  | .failed e c => (.error (e :: c.errors).reverse, c.supply)
  | .starved => (.error [], supply)

end Program

end Scriptlet
