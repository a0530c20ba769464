/-
**Where expressions and programs end.**

No token of an expression is a semicolon, a brace or a word that begins a declaration or a
statement.  A program that is not empty ends in a semicolon or in a closing brace.

Main definitions:

* `Scriptlet.TokenKind.isStructural` — the kinds that no expression has in it;
* `Scriptlet.Grammar.Closes` — lists of tokens that end in a semicolon or a closing brace.

Main results:

* `Scriptlet.Grammar.Expression.not_structural` — **what no expression has in it**;
* `Scriptlet.Grammar.Declarations.closes` — **how a program ends**.
-/

import Scriptlet.Proofs.Program.Completeness

set_option relaxedAutoImplicit false
set_option autoImplicit false

namespace Scriptlet

/-- The kinds that no expression has in it: what ends a declaration or a statement, and the words
that begin one. -/
def TokenKind.isStructural : TokenKind → Bool
  | .semicolon | .leftBrace | .rightBrace | .classWord | .elseWord | .funWord | .forWord | .ifWord
  | .printWord | .returnWord | .varWord | .whileWord | .endOfSource => true
  | _ => false

namespace Grammar

/-! ### Inside of an expression -/

/-- Tokens of which none is structural. -/
abbrev Plainly (ts : List Token) : Prop := ∀ t ∈ ts, t.kind.isStructural = false

theorem Plainly.cons {t : Token} {ts : List Token} {k : TokenKind} (ht : t.kind = k)
    (hk : k.isStructural = false) (h : Plainly ts) : Plainly (t :: ts) :=
  List.forall_mem_cons.2 ⟨by rw [ht, hk], h⟩

theorem Plainly.append {ts us : List Token} (h : Plainly ts) (h' : Plainly us) :
    Plainly (ts ++ us) :=
  List.forall_mem_append.2 ⟨h, h'⟩

theorem plainly_nil : Plainly [] := nofun

/-- No operator is structural. -/
theorem Operator.not_structural {level : Level} {kind : TokenKind} {join : Join}
    (h : Operator level kind join) : kind.isStructural = false := by
  cases h <;> rfl

mutual

/-- **What no expression has in it.** -/
theorem Expression.not_structural {ts : List Token} {e : Expr} : Expression ts e → Plainly ts
  | .plain h => h.not_structural
  | .choice h hq hx hc hy =>
      h.not_structural.append
        (.cons hq rfl (hx.not_structural.append (.cons hc rfl hy.not_structural)))

theorem Assignment.not_structural {ts : List Token} {e : Expr} : Assignment ts e → Plainly ts
  | .plain h => h.not_structural
  | .name h hq he => h.not_structural.append (.cons hq rfl he.not_structural)
  | .property h hq he => h.not_structural.append (.cons hq rfl he.not_structural)

theorem Operand.not_structural {level : Option Level} {ts : List Token} {e : Expr} :
    Operand level ts e → Plainly ts
  | .level _ h hjoins => h.not_structural.append hjoins.not_structural
  | .unary h => h.not_structural

theorem Joins.not_structural {level : Level} {left e : Expr} {ts : List Token} :
    Joins level left ts e → Plainly ts
  | .nil => plainly_nil
  | .cons ho _ h hjoins =>
      List.forall_mem_cons.2
        ⟨ho.not_structural, List.forall_mem_append.2 ⟨h.not_structural, hjoins.not_structural⟩⟩

theorem Unary.not_structural {ts : List Token} {e : Expr} : Unary ts e → Plainly ts
  | .not ho h => .cons ho rfl h.not_structural
  | .negate ho h => .cons ho rfl h.not_structural
  | .call h hs => h.not_structural.append hs.not_structural

theorem Suffixes.not_structural {callee e : Expr} {ts : List Token} :
    Suffixes callee ts e → Plainly ts
  | .nil => plainly_nil
  | .call ho h hc hs => .cons ho rfl (h.not_structural.append (.cons hc rfl hs.not_structural))
  | .property hd hn hs => .cons hd rfl (.cons hn rfl hs.not_structural)

theorem ArgumentList.not_structural {ts : List Token} {es : List Expr} :
    ArgumentList ts es → Plainly ts
  | .none => plainly_nil
  | .some h _ => h.not_structural

theorem Arguments.not_structural {ts : List Token} {es : List Expr} : Arguments ts es → Plainly ts
  | .last h => h.not_structural
  | .more h hc hs => h.not_structural.append (.cons hc rfl hs.not_structural)

theorem Primary.not_structural {ts : List Token} {e : Expr} : Primary ts e → Plainly ts
  | .number hk _ => hk.elim (.cons · rfl plainly_nil) (.cons · rfl plainly_nil)
  | .string hk _ => hk.elim (.cons · rfl plainly_nil) (.cons · rfl plainly_nil)
  | .trueWord hk => .cons hk rfl plainly_nil
  | .falseWord hk => .cons hk rfl plainly_nil
  | .nilWord hk => .cons hk rfl plainly_nil
  | .thisWord hk => .cons hk rfl plainly_nil
  | .superWord hk hd hm => .cons hk rfl (.cons hd rfl (.cons hm rfl plainly_nil))
  | .name hk => .cons hk rfl plainly_nil
  | .grouping ho h hc => .cons ho rfl (h.not_structural.append (.cons hc rfl plainly_nil))

end

/-! ### The end of a program -/

/-- Tokens that end in a semicolon or a closing brace. -/
def Closes (ts : List Token) : Prop :=
  ∃ t ∈ ts.getLast?, t.kind = .semicolon ∨ t.kind = .rightBrace

theorem Closes.append {us : List Token} (h : Closes us) (ts : List Token) : Closes (ts ++ us) := by
  obtain ⟨t, ht, hk⟩ := h
  exact ⟨t, by rw [List.getLast?_append, Option.mem_def.1 ht]; rfl, hk⟩

theorem Closes.cons {us : List Token} (h : Closes us) (t : Token) : Closes (t :: us) :=
  h.append [t]

theorem closes_semicolon {t : Token} (h : t.kind = .semicolon) : Closes [t] := ⟨t, rfl, .inl h⟩

theorem closes_rightBrace {t : Token} (h : t.kind = .rightBrace) : Closes [t] := ⟨t, rfl, .inr h⟩

theorem Block.closes {ts : List Token} {body : List Decl} : Block ts body → Closes ts
  | .mk _ _ hc => ((closes_rightBrace hc).append _).cons _

theorem Statement.closes {dangling : Bool} {ts : List Token} {s : Stmt} :
    Statement dangling ts s → Closes ts
  | .expression _ hs => (closes_semicolon hs).append _
  | .print _ _ hs => ((closes_semicolon hs).append _).cons _
  | .ret _ _ hs => ((closes_semicolon hs).append _).cons _
  | .block h => h.closes
  | .ifThen _ _ _ _ h => (((h.closes.cons _).append _).cons _).cons _
  | .ifElse _ _ _ _ _ _ h => (((((h.closes.cons _).append _).cons _).append _).cons _).cons _
  | .whileLoop _ _ _ _ h => (((h.closes.cons _).append _).cons _).cons _
  | .forLoop _ _ _ _ _ _ _ h =>
      ((((((h.closes.cons _).append _).cons _).append _).append _).cons _).cons _

theorem Declaration.closes {ts : List Token} {d : Decl} : Declaration ts d → Closes ts
  | .classDecl _ _ _ _ _ hc => (((((closes_rightBrace hc).append _).cons _).append _).cons _).cons _
  | .funDecl _ (.mk _ _ _ _ h) => ((((h.closes.cons _).append _).cons _).cons _).cons _
  | .varDecl (.mk _ _ _ hs) => (((closes_semicolon hs).append _).cons _).cons _
  | .statement h => h.closes

/-- **How a program ends**: it is empty, or its last token is a semicolon or a closing brace. -/
theorem Declarations.closes {ts : List Token} {ds : List Decl} :
    Declarations ts ds → ts = [] ∨ Closes ts
  | .nil => .inl rfl
  | .cons h hs => .inr <| by
      rcases hs.closes with rfl | hcloses
      · rw [List.append_nil]
        exact h.closes
      · exact hcloses.append _

/-! ### The smallest expressions -/

/-- A phrase of the tightest level is one of every level. -/
theorem Unary.operand {ts : List Token} {e : Expr} (h : Unary ts e) (level : Level) :
    Operand (some level) ts e := by
  have up : ∀ {level tighter}, Operands level tighter → Operand tighter ts e →
      Operand (some level) ts e := fun hlevel hoperand => by
    simpa using Operand.level hlevel hoperand .nil
  have hproduct := up .product (.unary h)
  have hsum := up .sum hproduct
  have hcomparison := up .comparison hsum
  have hequality := up .equality hcomparison
  have hconjunction := up .conjunction hequality
  cases level with
  | disjunction => exact up .disjunction hconjunction
  | conjunction => exact hconjunction
  | equality => exact hequality
  | comparison => exact hcomparison
  | sum => exact hsum
  | product => exact hproduct

/-- A literal, a word, a name or an expression in parentheses is an expression. -/
theorem Primary.expression {ts : List Token} {e : Expr} (h : Primary ts e) : Expression ts e := by
  have hunary : Unary ts e := by simpa using Unary.call h .nil
  exact .plain (.plain (hunary.operand _))

end Grammar

end Scriptlet
