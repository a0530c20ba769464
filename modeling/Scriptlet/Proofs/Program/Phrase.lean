/-
**Phrases: the grammar with numbers and places.**

The productions of the grammar say which tree a list of tokens derives up to numbers, labels and
places.  Here the same productions also say which numbers and labels are given away on the way, and
which stretch of the source each node covers: an expression takes the next number when its last
part has been read, a routine takes the next label behind its body.  Everything that is said about
the trees of parsed programs can be shown by induction on these productions.

Main definitions:

* `Scriptlet.Supply.afterExpr`, `Scriptlet.Supply.afterRoutine` — the supply without its next
  number and without its next label;
* `Scriptlet.Phrase.Expression`, `Scriptlet.Phrase.Statement`, `Scriptlet.Phrase.Declaration`, …
  — **the tokens of a phrase, its tree, and the supply in front of it and behind it**.

Main results:

* `Scriptlet.Phrase.Expression.derives`, `Scriptlet.Phrase.Statement.derives`,
  `Scriptlet.Phrase.Declarations.derives`, … — a phrase without its numbers, labels and places is
  one of the grammar.
-/

import Scriptlet.Proofs.Program.Grammar

set_option relaxedAutoImplicit false
set_option autoImplicit false

namespace Scriptlet

namespace Supply

/-- The supply without its next number. -/
def afterExpr (s : Supply) : Supply := { s with expr := s.expr + 1 }

/-- The supply without its next label. -/
def afterRoutine (s : Supply) : Supply := { s with routine := s.routine + 1 }

@[simp] theorem afterExpr_expr (s : Supply) : s.afterExpr.expr = s.expr + 1 := rfl

@[simp] theorem afterExpr_routine (s : Supply) : s.afterExpr.routine = s.routine := rfl

@[simp] theorem afterRoutine_expr (s : Supply) : s.afterRoutine.expr = s.expr := rfl

@[simp] theorem afterRoutine_routine (s : Supply) :
    s.afterRoutine.routine = s.routine + 1 := rfl

end Supply

namespace Phrase

/-! ### Expressions -/

mutual

/-- An assignment, or a choice between two assignments. -/
inductive Expression : List Token → Supply → Expr → Supply → Prop
  | plain {ts : List Token} {s s' : Supply} {e : Expr} : Assignment ts s e s' →
      Expression ts s e s'
  | choice {ts us vs : List Token} {question colon : Token} {s s₁ s₂ s₃ : Supply} {e x y : Expr} :
      Assignment ts s e s₁ → question.kind = .question → Assignment us s₁ x s₂ →
      colon.kind = .colon → Assignment vs s₂ y s₃ →
      Expression (ts ++ question :: (us ++ colon :: vs)) s
        (.ternary ⟨s₃.expr, e.span.through y.span⟩ e question.span x y) s₃.afterExpr

/-- A phrase of operators, or an assignment to a variable or a property.  The number of a variable
that is assigned to goes to the assignment; its own is lost. -/
inductive Assignment : List Token → Supply → Expr → Supply → Prop
  | plain {ts : List Token} {s s' : Supply} {e : Expr} :
      Operand (some .disjunction) ts s e s' → Assignment ts s e s'
  | name {ts us : List Token} {equals : Token} {s s₁ s₂ : Supply} {mark : Mark}
      {name : String} {e : Expr} : Operand (some .disjunction) ts s (.variable mark name) s₁ →
      equals.kind = .equal → Assignment us s₁ e s₂ →
      Assignment (ts ++ equals :: us) s
        (.assign ⟨s₂.expr, mark.span.through e.span⟩ name e) s₂.afterExpr
  | property {ts us : List Token} {equals : Token} {s s₁ s₂ : Supply} {mark : Mark}
      {object e : Expr} {name : String} :
      Operand (some .disjunction) ts s (.get mark object name) s₁ → equals.kind = .equal →
      Assignment us s₁ e s₂ →
      Assignment (ts ++ equals :: us) s
        (.set ⟨s₂.expr, mark.span.through e.span⟩ object name e) s₂.afterExpr

/-- A phrase of a level of operators, or an operand with operators in front. -/
inductive Operand : Option Level → List Token → Supply → Expr → Supply → Prop
  | level {level : Level} {ts us : List Token} {s s₁ s₂ : Supply} {left e : Expr} :
      Operand level.tighter? ts s left s₁ → Joins level left us s₁ e s₂ →
      Operand (some level) (ts ++ us) s e s₂
  | unary {ts : List Token} {s s' : Supply} {e : Expr} : Unary ts s e s' → Operand none ts s e s'

/-- Operators of a level, each with an operand, joined from the left. -/
inductive Joins : Level → Expr → List Token → Supply → Expr → Supply → Prop
  | nil {level : Level} {s : Supply} {left : Expr} : Joins level left [] s left s
  | cons {level : Level} {join : Join} {operator : Token} {ts us : List Token}
      {s s₁ s₂ : Supply} {left right e : Expr} : level.join? operator.kind = some join →
      Operand level.tighter? ts s right s₁ →
      Joins level (join.expr ⟨s₁.expr, left.span.through right.span⟩ left operator.span right) us
        s₁.afterExpr e s₂ →
      Joins level left (operator :: (ts ++ us)) s e s₂

/-- An operand with operators in front. -/
inductive Unary : List Token → Supply → Expr → Supply → Prop
  | operator {operator : Token} {op : UnaryOp} {ts : List Token} {s s₁ : Supply} {e : Expr} :
      UnaryOp.ofKind? operator.kind = some op → Unary ts s e s₁ →
      Unary (operator :: ts) s (.unary ⟨s₁.expr, operator.span.through e.span⟩ op e) s₁.afterExpr
  | call {ts us : List Token} {s s₁ s₂ : Supply} {callee e : Expr} : Primary ts s callee s₁ →
      Suffixes callee us s₁ e s₂ → Unary (ts ++ us) s e s₂

/-- Calls and properties, from left to right. -/
inductive Suffixes : Expr → List Token → Supply → Expr → Supply → Prop
  | nil {s : Supply} {callee : Expr} : Suffixes callee [] s callee s
  | call {opening closing : Token} {ts us : List Token} {s s₁ s₂ : Supply} {callee e : Expr}
      {arguments : List Expr} : opening.kind = .leftParen → ArgumentList ts s arguments s₁ →
      closing.kind = .rightParen →
      Suffixes (.call ⟨s₁.expr, callee.span.through closing.span⟩ callee arguments closing.span) us
        s₁.afterExpr e s₂ →
      Suffixes callee (opening :: (ts ++ closing :: us)) s e s₂
  | property {dot name : Token} {us : List Token} {s s₁ : Supply} {callee e : Expr} :
      dot.kind = .dot → name.kind = .identifier →
      Suffixes (.get ⟨s.expr, callee.span.through name.span⟩ callee name.lexeme) us
        s.afterExpr e s₁ →
      Suffixes callee (dot :: name :: us) s e s₁

/-- Nothing, or at most 255 arguments. -/
inductive ArgumentList : List Token → Supply → List Expr → Supply → Prop
  | none {s : Supply} : ArgumentList [] s [] s
  | some {ts : List Token} {s s' : Supply} {es : List Expr} : Arguments ts s es s' →
      es.length ≤ arityLimit → ArgumentList ts s es s'

/-- Arguments with commas between them, at least one. -/
inductive Arguments : List Token → Supply → List Expr → Supply → Prop
  | last {ts : List Token} {s s' : Supply} {e : Expr} : Expression ts s e s' →
      Arguments ts s [e] s'
  | more {ts us : List Token} {comma : Token} {s s₁ s₂ : Supply} {e : Expr} {es : List Expr} :
      Expression ts s e s₁ → comma.kind = .comma → Arguments us s₁ es s₂ →
      Arguments (ts ++ comma :: us) s (e :: es) s₂

/-- A literal, a word that stands for a value, a name, or an expression in parentheses. -/
inductive Primary : List Token → Supply → Expr → Supply → Prop
  | constant {t : Token} {value : Constant} {s : Supply} : Constant.ofToken? t = some value →
      Primary [t] s (.constant ⟨s.expr, t.span⟩ value) s.afterExpr
  | thisWord {t : Token} {s : Supply} : t.kind = .thisWord →
      Primary [t] s (.thisRef ⟨s.expr, t.span⟩) s.afterExpr
  | superWord {t dot method : Token} {s : Supply} : t.kind = .superWord → dot.kind = .dot →
      method.kind = .identifier →
      Primary [t, dot, method] s (.superRef ⟨s.expr, t.span.through method.span⟩ method.lexeme)
        s.afterExpr
  | name {t : Token} {s : Supply} : t.kind = .identifier →
      Primary [t] s (.variable ⟨s.expr, t.span⟩ t.lexeme) s.afterExpr
  | grouping {opening closing : Token} {ts : List Token} {s s₁ : Supply} {e : Expr} :
      opening.kind = .leftParen → Expression ts s e s₁ → closing.kind = .rightParen →
      Primary (opening :: (ts ++ [closing])) s
        (.grouping ⟨s₁.expr, opening.span.through closing.span⟩ e) s₁.afterExpr

end

/-! ### Parts of declarations and statements -/

/-- An expression, or nothing. -/
inductive Optional : List Token → Supply → Option Expr → Supply → Prop
  | none {s : Supply} : Optional [] s none s
  | some {ts : List Token} {s s' : Supply} {e : Expr} : Expression ts s e s' →
      Optional ts s (some e) s'

/-- Parameters with commas between them, at least one. -/
inductive Parameters : List Token → List Param → Prop
  | last {t : Token} : t.kind = .identifier → Parameters [t] [⟨t.lexeme, t.span⟩]
  | more {t comma : Token} {ts : List Token} {ps : List Param} : t.kind = .identifier →
      comma.kind = .comma → Parameters ts ps →
      Parameters (t :: comma :: ts) (⟨t.lexeme, t.span⟩ :: ps)

/-- Nothing, or at most 255 parameters. -/
inductive ParameterList : List Token → List Param → Prop
  | none : ParameterList [] []
  | some {ts : List Token} {ps : List Param} : Parameters ts ps → ps.length ≤ arityLimit →
      ParameterList ts ps

/-- The superclass of a class, or nothing. -/
inductive Parent : List Token → Supply → Option Superclass → Supply → Prop
  | none {s : Supply} : Parent [] s none s
  | some {less name : Token} {s : Supply} : less.kind = .less → name.kind = .identifier →
      Parent [less, name] s (some ⟨⟨s.expr, name.span⟩, name.lexeme⟩) s.afterExpr

/-- An initialiser behind an equals sign, or nothing. -/
inductive Initializer : List Token → Supply → Option Expr → Supply → Prop
  | none {s : Supply} : Initializer [] s none s
  | some {equals : Token} {ts : List Token} {s s' : Supply} {e : Expr} : equals.kind = .equal →
      Expression ts s e s' → Initializer (equals :: ts) s (some e) s'

/-- A variable declaration. -/
inductive Variable : List Token → Supply → Decl → Supply → Prop
  | mk {keyword name semicolon : Token} {ts : List Token} {s s' : Supply}
      {initializer : Option Expr} : keyword.kind = .varWord → name.kind = .identifier →
      Initializer ts s initializer s' → semicolon.kind = .semicolon →
      Variable (keyword :: name :: (ts ++ [semicolon])) s
        (.varDecl name.lexeme name.span initializer (keyword.span.through semicolon.span)) s'

/-- The initialiser of a `for` loop with its semicolon. -/
inductive LoopInitializer : List Token → Supply → Option Decl → Supply → Prop
  | none {semicolon : Token} {s : Supply} : semicolon.kind = .semicolon →
      LoopInitializer [semicolon] s none s
  | declaration {ts : List Token} {s s' : Supply} {d : Decl} : Variable ts s d s' →
      LoopInitializer ts s (some d) s'
  | expression {semicolon : Token} {ts : List Token} {s s' : Supply} {e : Expr} :
      Expression ts s e s' → semicolon.kind = .semicolon →
      LoopInitializer (ts ++ [semicolon]) s (some (.statement (.expression e e.span))) s'

/-- The condition of a `for` loop with its semicolon: without one the loop goes on. -/
inductive LoopCondition : List Token → Supply → Expr → Supply → Prop
  | none {semicolon : Token} {s : Supply} : semicolon.kind = .semicolon →
      LoopCondition [semicolon] s (.constant ⟨s.expr, semicolon.span⟩ (.bool true)) s.afterExpr
  | some {semicolon : Token} {ts : List Token} {s s' : Supply} {e : Expr} :
      Expression ts s e s' → semicolon.kind = .semicolon →
      LoopCondition (ts ++ [semicolon]) s e s'

/-! ### Declarations and statements -/

mutual

/-- Declarations that follow one another. -/
inductive Declarations : List Token → Supply → List Decl → Supply → Prop
  | nil {s : Supply} : Declarations [] s [] s
  | cons {ts us : List Token} {s s₁ s₂ : Supply} {d : Decl} {ds : List Decl} :
      Declaration ts s d s₁ → Declarations us s₁ ds s₂ → Declarations (ts ++ us) s (d :: ds) s₂

/-- A class, a function, a variable, or a statement. -/
inductive Declaration : List Token → Supply → Decl → Supply → Prop
  | classDecl {keyword name opening closing : Token} {ts us : List Token} {s s₁ s₂ : Supply}
      {superclass : Option Superclass} {methods : List Routine} : keyword.kind = .classWord →
      name.kind = .identifier → Parent ts s superclass s₁ → opening.kind = .leftBrace →
      Methods us s₁ methods s₂ → closing.kind = .rightBrace →
      Declaration (keyword :: name :: (ts ++ opening :: (us ++ [closing]))) s
        (.classDecl name.lexeme name.span superclass methods (keyword.span.through closing.span))
        s₂
  | funDecl {keyword : Token} {ts : List Token} {s s' : Supply} {r : Routine} :
      keyword.kind = .funWord → Function ts s r s' →
      Declaration (keyword :: ts) s
        (.funDecl r (keyword.span.through (ts.getLastD keyword).span)) s'
  | varDecl {ts : List Token} {s s' : Supply} {d : Decl} : Variable ts s d s' →
      Declaration ts s d s'
  | statement {dangling : Bool} {ts : List Token} {s s' : Supply} {stmt : Stmt} :
      Statement dangling ts s stmt s' → Declaration ts s (.statement stmt) s'

/-- The methods of a class. -/
inductive Methods : List Token → Supply → List Routine → Supply → Prop
  | nil {s : Supply} : Methods [] s [] s
  | cons {ts us : List Token} {s s₁ s₂ : Supply} {r : Routine} {rs : List Routine} :
      Function ts s r s₁ → Methods us s₁ rs s₂ → Methods (ts ++ us) s (r :: rs) s₂

/-- A routine, from its name on. -/
inductive Function : List Token → Supply → Routine → Supply → Prop
  | mk {name opening closing : Token} {ts us : List Token} {s s₁ : Supply} {params : List Param}
      {body : List Decl} : name.kind = .identifier → opening.kind = .leftParen →
      ParameterList ts params → closing.kind = .rightParen → Block us s body s₁ →
      Function (name :: opening :: (ts ++ closing :: us)) s
        (.mk s₁.routine name.lexeme params body (name.span.through (us.getLastD closing).span))
        s₁.afterRoutine

/-- Declarations in braces. -/
inductive Block : List Token → Supply → List Decl → Supply → Prop
  | mk {opening closing : Token} {ts : List Token} {s s' : Supply} {body : List Decl} :
      opening.kind = .leftBrace → Declarations ts s body s' → closing.kind = .rightBrace →
      Block (opening :: (ts ++ [closing])) s body s'

/-- A statement, and whether it ends in an `if` without `else`. -/
inductive Statement : Bool → List Token → Supply → Stmt → Supply → Prop
  | expression {semicolon : Token} {ts : List Token} {s s' : Supply} {e : Expr} :
      Expression ts s e s' → semicolon.kind = .semicolon →
      Statement false (ts ++ [semicolon]) s (.expression e e.span) s'
  | print {keyword semicolon : Token} {ts : List Token} {s s' : Supply} {e : Expr} :
      keyword.kind = .printWord → Expression ts s e s' → semicolon.kind = .semicolon →
      Statement false (keyword :: (ts ++ [semicolon])) s
        (.print e (keyword.span.through semicolon.span)) s'
  | ret {keyword semicolon : Token} {ts : List Token} {s s' : Supply} {value : Option Expr} :
      keyword.kind = .returnWord → Optional ts s value s' → semicolon.kind = .semicolon →
      Statement false (keyword :: (ts ++ [semicolon])) s
        (.ret keyword.span value (keyword.span.through semicolon.span)) s'
  | block {opening : Token} {ts : List Token} {s s' : Supply} {body : List Decl} :
      Block (opening :: ts) s body s' →
      Statement false (opening :: ts) s
        (.block body (opening.span.through (ts.getLastD opening).span)) s'
  | ifThen {dangling : Bool} {keyword opening closing : Token} {ts us : List Token}
      {s s₁ s₂ : Supply} {e : Expr} {stmt : Stmt} : keyword.kind = .ifWord →
      opening.kind = .leftParen → Expression ts s e s₁ → closing.kind = .rightParen →
      Statement dangling us s₁ stmt s₂ →
      Statement true (keyword :: opening :: (ts ++ closing :: us)) s
        (.ifElse e stmt none (keyword.span.through (us.getLastD closing).span)) s₂
  | ifElse {dangling : Bool} {keyword opening closing otherwise : Token} {ts us vs : List Token}
      {s s₁ s₂ s₃ : Supply} {e : Expr} {stmt stmt' : Stmt} : keyword.kind = .ifWord →
      opening.kind = .leftParen → Expression ts s e s₁ → closing.kind = .rightParen →
      Statement false us s₁ stmt s₂ → otherwise.kind = .elseWord →
      Statement dangling vs s₂ stmt' s₃ →
      Statement dangling (keyword :: opening :: (ts ++ closing :: (us ++ otherwise :: vs))) s
        (.ifElse e stmt (some stmt') (keyword.span.through (vs.getLastD otherwise).span)) s₃
  | whileLoop {dangling : Bool} {keyword opening closing : Token} {ts us : List Token}
      {s s₁ s₂ : Supply} {e : Expr} {stmt : Stmt} : keyword.kind = .whileWord →
      opening.kind = .leftParen → Expression ts s e s₁ → closing.kind = .rightParen →
      Statement dangling us s₁ stmt s₂ →
      Statement dangling (keyword :: opening :: (ts ++ closing :: us)) s
        (.whileLoop e stmt (keyword.span.through (us.getLastD closing).span)) s₂
  | forLoop {dangling : Bool} {keyword opening closing : Token} {ts us vs ws : List Token}
      {s s₁ s₂ s₃ s₄ : Supply} {initializer : Option Decl} {condition : Expr}
      {increment : Option Expr} {body : Stmt} : keyword.kind = .forWord →
      opening.kind = .leftParen → LoopInitializer ts s initializer s₁ →
      LoopCondition us s₁ condition s₂ → Optional vs s₂ increment s₃ →
      closing.kind = .rightParen → Statement dangling ws s₃ body s₄ →
      Statement dangling (keyword :: opening :: (ts ++ (us ++ (vs ++ closing :: ws)))) s
        (Parser.forLoop initializer condition increment body
          (keyword.span.through (ws.getLastD closing).span)) s₄

end

/-! ### Phrases derive their bare trees -/

/-- A token with a value derives the constant of that value. -/
theorem constant_derives {t : Token} {value : Constant} (h : Constant.ofToken? t = some value) :
    Grammar.Primary [t] (.constant default value) := by
  unfold Constant.ofToken? at h
  split at h
  · rename_i hk
    split at h
    · rename_i x hl
      obtain rfl := Option.some.inj h
      exact .number (.inl hk) hl
    · rename_i x hl
      obtain rfl := Option.some.inj h
      exact .string (.inl hk) hl
    · cases h
  · rename_i hk
    split at h
    · rename_i x hl
      obtain rfl := Option.some.inj h
      exact .number (.inr hk) hl
    · rename_i x hl
      obtain rfl := Option.some.inj h
      exact .string (.inr hk) hl
    · cases h
  · obtain rfl := Option.some.inj h
    exact .trueWord ‹_›
  · obtain rfl := Option.some.inj h
    exact .falseWord ‹_›
  · obtain rfl := Option.some.inj h
    exact .nilWord ‹_›
  · cases h

/-- An operator joins bare trees to a bare tree. -/
theorem bare_join (join : Join) (mark : Mark) (left right : Expr) (opSpan : Span) :
    (join.expr mark left opSpan right).bare = join.expr default left.bare default right.bare := by
  cases join <;> simp only [Join.expr, Expr.bare]

theorem length_allBare (es : List Expr) : (Expr.allBare es).length = es.length := by
  induction es with
  | nil => rfl
  | cons e es ih => simp only [Expr.allBare, List.length_cons, ih]

mutual

theorem Expression.derives {ts : List Token} {s s' : Supply} {e : Expr} :
    Expression ts s e s' → Grammar.Expression ts e.bare
  | .plain h => .plain h.derives
  | .choice h hq hx hc hy => by
      rw [Expr.bare]
      exact .choice h.derives hq hx.derives hc hy.derives

theorem Assignment.derives {ts : List Token} {s s' : Supply} {e : Expr} :
    Assignment ts s e s' → Grammar.Assignment ts e.bare
  | .plain h => .plain h.derives
  | .name h hq hv => by
      have h := h.derives
      simp only [Expr.bare] at h ⊢
      exact .name h hq hv.derives
  | .property h hq hv => by
      have h := h.derives
      simp only [Expr.bare] at h ⊢
      exact .property h hq hv.derives

theorem Operand.derives {level : Option Level} {ts : List Token} {s s' : Supply} {e : Expr} :
    Operand level ts s e s' → Grammar.Operand level ts e.bare
  | .level h hj => .level (Grammar.operands_iff.2 rfl) h.derives hj.derives
  | .unary h => .unary h.derives

theorem Joins.derives {level : Level} {left : Expr} {ts : List Token} {s s' : Supply} {e : Expr} :
    Joins level left ts s e s' → Grammar.Joins level left.bare ts e.bare
  | .nil => .nil
  | .cons ho h hj => by
      have hj := hj.derives
      rw [bare_join] at hj
      exact .cons (Grammar.operator_iff.2 ho) (Grammar.operands_iff.2 rfl) h.derives hj

theorem Unary.derives {ts : List Token} {s s' : Supply} {e : Expr} :
    Unary ts s e s' → Grammar.Unary ts e.bare
  | .operator ho h => by
      have h := h.derives
      rw [Expr.bare]
      unfold UnaryOp.ofKind? at ho
      split at ho
      · obtain rfl := Option.some.inj ho
        exact .not ‹_› h
      · obtain rfl := Option.some.inj ho
        exact .negate ‹_› h
      · cases ho
  | .call h hs => .call h.derives hs.derives

theorem Suffixes.derives {callee : Expr} {ts : List Token} {s s' : Supply} {e : Expr} :
    Suffixes callee ts s e s' → Grammar.Suffixes callee.bare ts e.bare
  | .nil => .nil
  | .call ho ha hc hs => by
      have hs := hs.derives
      rw [Expr.bare] at hs
      exact .call ho ha.derives hc hs
  | .property hd hn hs => by
      have hs := hs.derives
      rw [Expr.bare] at hs
      exact .property hd hn hs

theorem ArgumentList.derives {ts : List Token} {s s' : Supply} {es : List Expr} :
    ArgumentList ts s es s' → Grammar.ArgumentList ts (Expr.allBare es)
  | .none => .none
  | .some h hl => .some h.derives (by rw [length_allBare]; exact hl)

theorem Arguments.derives {ts : List Token} {s s' : Supply} {es : List Expr} :
    Arguments ts s es s' → Grammar.Arguments ts (Expr.allBare es)
  | .last h => .last h.derives
  | .more h hc hs => .more h.derives hc hs.derives

theorem Primary.derives {ts : List Token} {s s' : Supply} {e : Expr} :
    Primary ts s e s' → Grammar.Primary ts e.bare
  | .constant h => by
      rw [Expr.bare]
      exact constant_derives h
  | .thisWord h => .thisWord h
  | .superWord h hd hm => .superWord h hd hm
  | .name h => .name h
  | .grouping ho h hc => by
      rw [Expr.bare]
      exact .grouping ho h.derives hc

end

theorem Optional.derives {ts : List Token} {s s' : Supply} {e : Option Expr} :
    Optional ts s e s' → Grammar.Optional ts (e.map Expr.bare)
  | .none => .none
  | .some h => .some h.derives

theorem Parameters.derives {ts : List Token} {ps : List Param} :
    Parameters ts ps → Grammar.Parameters ts (ps.map Param.bare)
  | .last h => .last h
  | .more h hc hs => .more h hc hs.derives

theorem ParameterList.derives {ts : List Token} {ps : List Param} :
    ParameterList ts ps → Grammar.ParameterList ts (ps.map Param.bare)
  | .none => .none
  | .some h hl => .some h.derives (by rw [List.length_map]; exact hl)

theorem Parent.derives {ts : List Token} {s s' : Supply} {p : Option Superclass} :
    Parent ts s p s' → Grammar.Parent ts (p.map Superclass.bare)
  | .none => .none
  | .some hl hn => .some hl hn

theorem Initializer.derives {ts : List Token} {s s' : Supply} {e : Option Expr} :
    Initializer ts s e s' → Grammar.Initializer ts (e.map Expr.bare)
  | .none => .none
  | .some hq h => .some hq h.derives

theorem Variable.derives {ts : List Token} {s s' : Supply} {d : Decl} :
    Variable ts s d s' → Grammar.Variable ts d.bare
  | .mk hk hn hi hs => by
      rw [Decl.bare]
      exact .mk hk hn hi.derives hs

theorem LoopInitializer.derives {ts : List Token} {s s' : Supply} {d : Option Decl} :
    LoopInitializer ts s d s' → Grammar.LoopInitializer ts (d.map Decl.bare)
  | .none hs => .none hs
  | .declaration h => .declaration h.derives
  | .expression h hs => by
      rw [Option.map_some, Decl.bare, Stmt.bare]
      exact .expression h.derives hs

theorem LoopCondition.derives {ts : List Token} {s s' : Supply} {e : Expr} :
    LoopCondition ts s e s' → ∃ us semicolon, ts = us ++ [semicolon] ∧
      semicolon.kind = .semicolon ∧ Grammar.LoopCondition us e.bare
  | .none hs => ⟨[], _, rfl, hs, .none⟩
  | .some h hs => ⟨_, _, rfl, hs, .some h.derives⟩

/-- The bare block of a `for` loop is that of its bare parts. -/
theorem bare_forLoop (initializer : Option Decl) (condition : Expr) (increment : Option Expr)
    (body : Stmt) (span : Span) :
    (Parser.forLoop initializer condition increment body span).bare =
      Grammar.loopBlock (initializer.map Decl.bare) condition.bare (increment.map Expr.bare)
        body.bare := by
  cases initializer <;> cases increment <;>
    simp only [Parser.forLoop, Grammar.loopBlock, Option.toList, Option.map, List.map, Stmt.bare,
      Decl.allBare, Decl.bare, List.nil_append, List.cons_append]

mutual

theorem Declarations.derives {ts : List Token} {s s' : Supply} {ds : List Decl} :
    Declarations ts s ds s' → Grammar.Declarations ts (Decl.allBare ds)
  | .nil => .nil
  | .cons h hs => .cons h.derives hs.derives

theorem Declaration.derives {ts : List Token} {s s' : Supply} {d : Decl} :
    Declaration ts s d s' → Grammar.Declaration ts d.bare
  | .classDecl hk hn hp ho hm hc => by
      rw [Decl.bare]
      exact .classDecl hk hn hp.derives ho hm.derives hc
  | .funDecl hk h => by
      rw [Decl.bare]
      exact .funDecl hk h.derives
  | .varDecl h => .varDecl h.derives
  | .statement h => by
      rw [Decl.bare]
      exact .statement h.derives

theorem Methods.derives {ts : List Token} {s s' : Supply} {rs : List Routine} :
    Methods ts s rs s' → Grammar.Methods ts (Routine.allBare rs)
  | .nil => .nil
  | .cons h hs => .cons h.derives hs.derives

theorem Function.derives {ts : List Token} {s s' : Supply} {r : Routine} :
    Function ts s r s' → Grammar.Function ts r.bare
  | .mk hn ho hp hc hb => by
      rw [Routine.bare]
      exact .mk hn ho hp.derives hc hb.derives

theorem Block.derives {ts : List Token} {s s' : Supply} {body : List Decl} :
    Block ts s body s' → Grammar.Block ts (Decl.allBare body)
  | .mk ho h hc => .mk ho h.derives hc

theorem Statement.derives {dangling : Bool} {ts : List Token} {s s' : Supply} {stmt : Stmt} :
    Statement dangling ts s stmt s' → Grammar.Statement dangling ts stmt.bare
  | .expression h hs => by
      rw [Stmt.bare]
      exact .expression h.derives hs
  | .print hk h hs => by
      rw [Stmt.bare]
      exact .print hk h.derives hs
  | .ret hk h hs => by
      rw [Stmt.bare]
      exact .ret hk h.derives hs
  | .block h => by
      rw [Stmt.bare]
      exact .block h.derives
  | .ifThen hk ho h hc ht => by
      rw [Stmt.bare]
      exact .ifThen hk ho h.derives hc ht.derives
  | .ifElse hk ho h hc ht he hs => by
      rw [Stmt.bare]
      exact .ifElse hk ho h.derives hc ht.derives he hs.derives
  | .whileLoop hk ho h hc hb => by
      rw [Stmt.bare]
      exact .whileLoop hk ho h.derives hc hb.derives
  | .forLoop hk ho hi hcond hincr hc hb => by
      obtain ⟨us, semicolon, rfl, hs, hcond⟩ := hcond.derives
      rw [bare_forLoop, List.append_assoc, List.singleton_append]
      exact .forLoop hk ho hi.derives hcond hs hincr.derives hc hb.derives

end

end Phrase

end Scriptlet
