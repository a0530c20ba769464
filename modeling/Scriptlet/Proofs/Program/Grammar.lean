/-
**The grammar of programs.**

Which lists of tokens are programs is said here by productions, without a cursor and without fuel.
A production speaks about the tree up to the numbers of expressions, the labels of routines and the
places: it derives *bare* trees, in which all of these are blank.

Operators group to the left: a phrase of a level is an operand of the next tighter level and then
operators of the level, each with an operand, which are joined from the left.  An `else` belongs to
the nearest `if`: the branch in front of an `else` may not end in an `if` that has none, and a
statement that ends in one is called dangling.

Main definitions:

* `Scriptlet.Expr.bare`, `Scriptlet.Stmt.bare`, `Scriptlet.Decl.bare`, `Scriptlet.Program.bare` —
  trees without numbers, labels and places;
* `Scriptlet.Grammar.Operator`, `Scriptlet.Grammar.Operands` — the levels of the operators;
* `Scriptlet.Grammar.Expression`, `Scriptlet.Grammar.Statement`, `Scriptlet.Grammar.Declaration`, …
  — the productions;
* `Scriptlet.Grammar.Derives` — **a list of tokens derives a program**.

Main results:

* `Scriptlet.Grammar.operator_iff`, `Scriptlet.Grammar.operands_iff` — the levels are those that
  the parser looks up.
-/

import Scriptlet.Program.Parse

set_option relaxedAutoImplicit false
set_option autoImplicit false

namespace Scriptlet

/-! ### Bare trees -/

mutual

/-- An expression without numbers and places. -/
def Expr.bare : Expr → Expr
  | .constant _ value => .constant default value
  | .grouping _ inner => .grouping default inner.bare
  | .unary _ op operand => .unary default op operand.bare
  | .binary _ left op _ right => .binary default left.bare op default right.bare
  | .logical _ left op right => .logical default left.bare op right.bare
  | .ternary _ condition _ thenBranch elseBranch =>
      .ternary default condition.bare default thenBranch.bare elseBranch.bare
  | .variable _ name => .variable default name
  | .assign _ name value => .assign default name value.bare
  | .call _ callee arguments _ => .call default callee.bare (Expr.allBare arguments) default
  | .get _ object name => .get default object.bare name
  | .set _ object name value => .set default object.bare name value.bare
  | .thisRef _ => .thisRef default
  | .superRef _ method => .superRef default method
termination_by structural e => e

/-- Expressions without numbers and places. -/
def Expr.allBare : List Expr → List Expr
  | [] => []
  | e :: es => e.bare :: Expr.allBare es
termination_by structural es => es

end

/-- A superclass without number and place. -/
def Superclass.bare (s : Superclass) : Superclass := ⟨default, s.name⟩

/-- A parameter without place. -/
def Param.bare (p : Param) : Param := ⟨p.name, default⟩

mutual

/-- A routine without label, numbers and places. -/
def Routine.bare : Routine → Routine
  | .mk _ name params body _ => .mk 0 name (params.map Param.bare) (Decl.allBare body) default
termination_by structural r => r

/-- Routines without labels, numbers and places. -/
def Routine.allBare : List Routine → List Routine
  | [] => []
  | r :: rs => r.bare :: Routine.allBare rs
termination_by structural rs => rs

/-- A declaration without labels, numbers and places. -/
def Decl.bare : Decl → Decl
  | .classDecl name _ superclass methods _ =>
      .classDecl name default (superclass.map Superclass.bare) (Routine.allBare methods) default
  | .funDecl routine _ => .funDecl routine.bare default
  | .varDecl name _ initializer _ => .varDecl name default (initializer.map Expr.bare) default
  | .statement stmt => .statement stmt.bare
termination_by structural d => d

/-- Declarations without labels, numbers and places. -/
def Decl.allBare : List Decl → List Decl
  | [] => []
  | d :: ds => d.bare :: Decl.allBare ds
termination_by structural ds => ds

/-- A statement without labels, numbers and places. -/
def Stmt.bare : Stmt → Stmt
  | .expression e _ => .expression e.bare default
  | .print e _ => .print e.bare default
  | .ret _ value _ => .ret default (value.map Expr.bare) default
  | .block body _ => .block (Decl.allBare body) default
  | .ifElse condition thenBranch none _ => .ifElse condition.bare thenBranch.bare none default
  | .ifElse condition thenBranch (some elseBranch) _ =>
      .ifElse condition.bare thenBranch.bare (some elseBranch.bare) default
  | .whileLoop condition body _ => .whileLoop condition.bare body.bare default
termination_by structural s => s

end

/-- A program without labels, numbers and places. -/
def Program.bare (p : Program) : Program := ⟨Decl.allBare p.declarations⟩

namespace Grammar

/-! ### Levels -/

/-- The operators of each level. -/
inductive Operator : Level → TokenKind → Join → Prop
  | or : Operator .disjunction .orWord (.logical .or)
  | and : Operator .conjunction .andWord (.logical .and)
  | equal : Operator .equality .equalEqual (.binary .equal)
  | notEqual : Operator .equality .bangEqual (.binary .notEqual)
  | greater : Operator .comparison .greater (.binary .greater)
  | greaterEqual : Operator .comparison .greaterEqual (.binary .greaterEqual)
  | less : Operator .comparison .less (.binary .less)
  | lessEqual : Operator .comparison .lessEqual (.binary .lessEqual)
  | add : Operator .sum .plus (.binary .add)
  | subtract : Operator .sum .minus (.binary .subtract)
  | multiply : Operator .product .star (.binary .multiply)
  | divide : Operator .product .slash (.binary .divide)

/-- What the operators of a level stand between: phrases of the next tighter level, or, on the
tightest, operands with operators in front. -/
inductive Operands : Level → Option Level → Prop
  | disjunction : Operands .disjunction (some .conjunction)
  | conjunction : Operands .conjunction (some .equality)
  | equality : Operands .equality (some .comparison)
  | comparison : Operands .comparison (some .sum)
  | sum : Operands .sum (some .product)
  | product : Operands .product none

theorem operator_iff {level : Level} {kind : TokenKind} {join : Join} :
    Operator level kind join ↔ level.join? kind = some join := by
  constructor
  · rintro ⟨⟩ <;> rfl
  · intro h
    unfold Level.join? at h
    split at h <;> first | (obtain rfl := Option.some.inj h; constructor) | simp at h

theorem operands_iff {level : Level} {tighter : Option Level} :
    Operands level tighter ↔ tighter = level.tighter? := by
  constructor
  · rintro ⟨⟩ <;> rfl
  · rintro rfl
    cases level <;> constructor

/-! ### Expressions -/

mutual

/-- An assignment, or a choice between two assignments. -/
inductive Expression : List Token → Expr → Prop
  | plain {ts : List Token} {e : Expr} : Assignment ts e → Expression ts e
  | choice {ts us vs : List Token} {question colon : Token} {e x y : Expr} : Assignment ts e →
      question.kind = .question → Assignment us x → colon.kind = .colon → Assignment vs y →
      Expression (ts ++ question :: (us ++ colon :: vs)) (.ternary default e default x y)

/-- A phrase of operators, or an assignment to a variable or a property. -/
inductive Assignment : List Token → Expr → Prop
  | plain {ts : List Token} {e : Expr} : Operand (some .disjunction) ts e → Assignment ts e
  | name {ts us : List Token} {equals : Token} {name : String} {e : Expr} :
      Operand (some .disjunction) ts (.variable default name) → equals.kind = .equal →
      Assignment us e → Assignment (ts ++ equals :: us) (.assign default name e)
  | property {ts us : List Token} {equals : Token} {object e : Expr} {name : String} :
      Operand (some .disjunction) ts (.get default object name) → equals.kind = .equal →
      Assignment us e → Assignment (ts ++ equals :: us) (.set default object name e)

/-- A phrase of a level of operators, or an operand with operators in front. -/
inductive Operand : Option Level → List Token → Expr → Prop
  | level {level : Level} {tighter : Option Level} {ts us : List Token} {left e : Expr} :
      Operands level tighter → Operand tighter ts left → Joins level left us e →
      Operand (some level) (ts ++ us) e
  | unary {ts : List Token} {e : Expr} : Unary ts e → Operand none ts e

/-- Operators of a level, each with an operand, joined from the left. -/
inductive Joins : Level → Expr → List Token → Expr → Prop
  | nil {level : Level} {left : Expr} : Joins level left [] left
  | cons {level : Level} {tighter : Option Level} {join : Join} {operator : Token}
      {ts us : List Token} {left right e : Expr} : Operator level operator.kind join →
      Operands level tighter → Operand tighter ts right →
      Joins level (join.expr default left default right) us e →
      Joins level left (operator :: (ts ++ us)) e

/-- An operand with operators in front. -/
inductive Unary : List Token → Expr → Prop
  | not {operator : Token} {ts : List Token} {e : Expr} : operator.kind = .bang → Unary ts e →
      Unary (operator :: ts) (.unary default .not e)
  | negate {operator : Token} {ts : List Token} {e : Expr} : operator.kind = .minus → Unary ts e →
      Unary (operator :: ts) (.unary default .negate e)
  | call {ts us : List Token} {callee e : Expr} : Primary ts callee → Suffixes callee us e →
      Unary (ts ++ us) e

/-- Calls and properties, from left to right. -/
inductive Suffixes : Expr → List Token → Expr → Prop
  | nil {callee : Expr} : Suffixes callee [] callee
  | call {opening closing : Token} {ts us : List Token} {callee e : Expr} {arguments : List Expr} :
      opening.kind = .leftParen → ArgumentList ts arguments → closing.kind = .rightParen →
      Suffixes (.call default callee arguments default) us e →
      Suffixes callee (opening :: (ts ++ closing :: us)) e
  | property {dot name : Token} {us : List Token} {callee e : Expr} : dot.kind = .dot →
      name.kind = .identifier → Suffixes (.get default callee name.lexeme) us e →
      Suffixes callee (dot :: name :: us) e

/-- Nothing, or at most 255 arguments. -/
inductive ArgumentList : List Token → List Expr → Prop
  | none : ArgumentList [] []
  | some {ts : List Token} {es : List Expr} : Arguments ts es → es.length ≤ 255 →
      ArgumentList ts es

/-- Arguments with commas between them, at least one. -/
inductive Arguments : List Token → List Expr → Prop
  | last {ts : List Token} {e : Expr} : Expression ts e → Arguments ts [e]
  | more {ts us : List Token} {comma : Token} {e : Expr} {es : List Expr} : Expression ts e →
      comma.kind = .comma → Arguments us es → Arguments (ts ++ comma :: us) (e :: es)

/-- A literal, a word that stands for a value, a name, or an expression in parentheses. -/
inductive Primary : List Token → Expr → Prop
  | number {t : Token} {x : Float} : t.kind = .number ∨ t.kind = .string →
      t.literal = some (.number x) → Primary [t] (.constant default (.number x))
  | string {t : Token} {s : String} : t.kind = .number ∨ t.kind = .string →
      t.literal = some (.string s) → Primary [t] (.constant default (.string s))
  | trueWord {t : Token} : t.kind = .trueWord → Primary [t] (.constant default (.bool true))
  | falseWord {t : Token} : t.kind = .falseWord → Primary [t] (.constant default (.bool false))
  | nilWord {t : Token} : t.kind = .nilWord → Primary [t] (.constant default .nil)
  | thisWord {t : Token} : t.kind = .thisWord → Primary [t] (.thisRef default)
  | superWord {t dot method : Token} : t.kind = .superWord → dot.kind = .dot →
      method.kind = .identifier → Primary [t, dot, method] (.superRef default method.lexeme)
  | name {t : Token} : t.kind = .identifier → Primary [t] (.variable default t.lexeme)
  | grouping {opening closing : Token} {ts : List Token} {e : Expr} : opening.kind = .leftParen →
      Expression ts e → closing.kind = .rightParen →
      Primary (opening :: (ts ++ [closing])) (.grouping default e)

end

/-! ### Parts of declarations and statements -/

/-- An expression, or nothing. -/
inductive Optional : List Token → Option Expr → Prop
  | none : Optional [] none
  | some {ts : List Token} {e : Expr} : Expression ts e → Optional ts (some e)

/-- Parameters with commas between them, at least one. -/
inductive Parameters : List Token → List Param → Prop
  | last {t : Token} : t.kind = .identifier → Parameters [t] [⟨t.lexeme, default⟩]
  | more {t comma : Token} {ts : List Token} {ps : List Param} : t.kind = .identifier →
      comma.kind = .comma → Parameters ts ps →
      Parameters (t :: comma :: ts) (⟨t.lexeme, default⟩ :: ps)

/-- Nothing, or at most 255 parameters. -/
inductive ParameterList : List Token → List Param → Prop
  | none : ParameterList [] []
  | some {ts : List Token} {ps : List Param} : Parameters ts ps → ps.length ≤ 255 →
      ParameterList ts ps

/-- The superclass of a class, or nothing. -/
inductive Parent : List Token → Option Superclass → Prop
  | none : Parent [] none
  | some {less name : Token} : less.kind = .less → name.kind = .identifier →
      Parent [less, name] (some ⟨default, name.lexeme⟩)

/-- An initialiser behind an equals sign, or nothing. -/
inductive Initializer : List Token → Option Expr → Prop
  | none : Initializer [] none
  | some {equals : Token} {ts : List Token} {e : Expr} : equals.kind = .equal → Expression ts e →
      Initializer (equals :: ts) (some e)

/-- A variable declaration. -/
inductive Variable : List Token → Decl → Prop
  | mk {keyword name semicolon : Token} {ts : List Token} {initializer : Option Expr} :
      keyword.kind = .varWord → name.kind = .identifier → Initializer ts initializer →
      semicolon.kind = .semicolon →
      Variable (keyword :: name :: (ts ++ [semicolon]))
        (.varDecl name.lexeme default initializer default)

/-- The initialiser of a `for` loop with its semicolon. -/
inductive LoopInitializer : List Token → Option Decl → Prop
  | none {semicolon : Token} : semicolon.kind = .semicolon → LoopInitializer [semicolon] none
  | declaration {ts : List Token} {d : Decl} : Variable ts d → LoopInitializer ts (some d)
  | expression {semicolon : Token} {ts : List Token} {e : Expr} : Expression ts e →
      semicolon.kind = .semicolon →
      LoopInitializer (ts ++ [semicolon]) (some (.statement (.expression e default)))

/-- The condition of a `for` loop: without one the loop goes on. -/
inductive LoopCondition : List Token → Expr → Prop
  | none : LoopCondition [] (.constant default (.bool true))
  | some {ts : List Token} {e : Expr} : Expression ts e → LoopCondition ts e

/-- The block that stands for a `for` loop. -/
def loopBlock (initializer : Option Decl) (condition : Expr) (increment : Option Expr)
    (body : Stmt) : Stmt :=
  .block (initializer.toList ++ [.statement (.whileLoop condition
    (.block (.statement body :: increment.toList.map fun e => .statement (.expression e default))
      default) default)]) default

/-! ### Declarations and statements -/

mutual

/-- Declarations that follow one another. -/
inductive Declarations : List Token → List Decl → Prop
  | nil : Declarations [] []
  | cons {ts us : List Token} {d : Decl} {ds : List Decl} : Declaration ts d →
      Declarations us ds → Declarations (ts ++ us) (d :: ds)

/-- A class, a function, a variable, or a statement. -/
inductive Declaration : List Token → Decl → Prop
  | classDecl {keyword name opening closing : Token} {ts us : List Token}
      {superclass : Option Superclass} {methods : List Routine} : keyword.kind = .classWord →
      name.kind = .identifier → Parent ts superclass → opening.kind = .leftBrace →
      Methods us methods → closing.kind = .rightBrace →
      Declaration (keyword :: name :: (ts ++ opening :: (us ++ [closing])))
        (.classDecl name.lexeme default superclass methods default)
  | funDecl {keyword : Token} {ts : List Token} {r : Routine} : keyword.kind = .funWord →
      Function ts r → Declaration (keyword :: ts) (.funDecl r default)
  | varDecl {ts : List Token} {d : Decl} : Variable ts d → Declaration ts d
  | statement {dangling : Bool} {ts : List Token} {s : Stmt} : Statement dangling ts s →
      Declaration ts (.statement s)

/-- The methods of a class. -/
inductive Methods : List Token → List Routine → Prop
  | nil : Methods [] []
  | cons {ts us : List Token} {r : Routine} {rs : List Routine} : Function ts r → Methods us rs →
      Methods (ts ++ us) (r :: rs)

/-- A routine, from its name on. -/
inductive Function : List Token → Routine → Prop
  | mk {name opening closing : Token} {ts us : List Token} {params : List Param}
      {body : List Decl} : name.kind = .identifier → opening.kind = .leftParen →
      ParameterList ts params → closing.kind = .rightParen → Block us body →
      Function (name :: opening :: (ts ++ closing :: us)) (.mk 0 name.lexeme params body default)

/-- Declarations in braces. -/
inductive Block : List Token → List Decl → Prop
  | mk {opening closing : Token} {ts : List Token} {body : List Decl} : opening.kind = .leftBrace →
      Declarations ts body → closing.kind = .rightBrace →
      Block (opening :: (ts ++ [closing])) body

/-- A statement, and whether it ends in an `if` without `else`. -/
inductive Statement : Bool → List Token → Stmt → Prop
  | expression {semicolon : Token} {ts : List Token} {e : Expr} : Expression ts e →
      semicolon.kind = .semicolon → Statement false (ts ++ [semicolon]) (.expression e default)
  | print {keyword semicolon : Token} {ts : List Token} {e : Expr} : keyword.kind = .printWord →
      Expression ts e → semicolon.kind = .semicolon →
      Statement false (keyword :: (ts ++ [semicolon])) (.print e default)
  | ret {keyword semicolon : Token} {ts : List Token} {value : Option Expr} :
      keyword.kind = .returnWord → Optional ts value → semicolon.kind = .semicolon →
      Statement false (keyword :: (ts ++ [semicolon])) (.ret default value default)
  | block {ts : List Token} {body : List Decl} : Block ts body →
      Statement false ts (.block body default)
  | ifThen {dangling : Bool} {keyword opening closing : Token} {ts us : List Token} {e : Expr}
      {s : Stmt} : keyword.kind = .ifWord → opening.kind = .leftParen → Expression ts e →
      closing.kind = .rightParen → Statement dangling us s →
      Statement true (keyword :: opening :: (ts ++ closing :: us)) (.ifElse e s none default)
  | ifElse {dangling : Bool} {keyword opening closing otherwise : Token} {ts us vs : List Token}
      {e : Expr} {s s' : Stmt} : keyword.kind = .ifWord → opening.kind = .leftParen →
      Expression ts e → closing.kind = .rightParen → Statement false us s →
      otherwise.kind = .elseWord → Statement dangling vs s' →
      Statement dangling (keyword :: opening :: (ts ++ closing :: (us ++ otherwise :: vs)))
        (.ifElse e s (some s') default)
  | whileLoop {dangling : Bool} {keyword opening closing : Token} {ts us : List Token} {e : Expr}
      {s : Stmt} : keyword.kind = .whileWord → opening.kind = .leftParen → Expression ts e →
      closing.kind = .rightParen → Statement dangling us s →
      Statement dangling (keyword :: opening :: (ts ++ closing :: us)) (.whileLoop e s default)
  | forLoop {dangling : Bool} {keyword opening semicolon closing : Token}
      {ts us vs ws : List Token} {initializer : Option Decl} {condition : Expr}
      {increment : Option Expr} {body : Stmt} : keyword.kind = .forWord →
      opening.kind = .leftParen → LoopInitializer ts initializer → LoopCondition us condition →
      semicolon.kind = .semicolon → Optional vs increment → closing.kind = .rightParen →
      Statement dangling ws body →
      Statement dangling (keyword :: opening :: (ts ++ (us ++ semicolon :: (vs ++ closing :: ws))))
        (loopBlock initializer condition increment body)

end

/-- **A list of tokens derives a program**, up to numbers, labels and places. -/
def Derives (ts : List Token) (p : Program) : Prop := Declarations ts p.declarations

end Grammar

end Scriptlet
