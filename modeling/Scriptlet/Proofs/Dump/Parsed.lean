/-
**A parsed program is determined by its dump.**

Of what the dump does not show, nothing is free in a parsed program.  Its numbers come from number
literals, so they have the positive sign, and one double with the positive sign has no decimal text.
Its labels are counted up in the order in which the bodies of its routines end, so they follow from
the shape of the program and from the first of them.

Main definitions:

* `Scriptlet.Token.Positive` — a token that is no number, or one with the positive sign;
* `Scriptlet.Decl.relabel`, `Scriptlet.Routine.relabel`, `Scriptlet.Stmt.relabel`, … — a tree with
  its labels counted up from a number, and the number behind the last of them.

Main results:

* `Scriptlet.Phrase.Declarations.positive` — the numbers of a phrase come from its tokens;
* `Scriptlet.Phrase.Declarations.relabel_eq` — **the labels of a phrase are counted up**;
* `Scriptlet.Program.dump_determines` — **two sources with one dump have one program**, and the dump
  is a JSON text in which no object repeats a name.
-/

import Scriptlet.Proofs.Dump.Trees
import Scriptlet.Proofs.Joined.Renumbering
import Scriptlet.Proofs.Program.Soundness

set_option relaxedAutoImplicit false
set_option autoImplicit false

namespace Scriptlet

/-! ### The numbers of a phrase -/

/-- A token that is no number, or one with the positive sign. -/
def Token.Positive (t : Token) : Prop :=
  ∀ x, Constant.ofToken? t = some (.number x) → (Decimal.shape x).Positive

/-- Tokens none of which is a number without the positive sign. -/
def TokensPositive (ts : List Token) : Prop := ∀ t ∈ ts, t.Positive

theorem tokensPositive_append {ts us : List Token} :
    TokensPositive (ts ++ us) ↔ TokensPositive ts ∧ TokensPositive us :=
  List.forall_mem_append

theorem tokensPositive_cons {t : Token} {ts : List Token} :
    TokensPositive (t :: ts) ↔ t.Positive ∧ TokensPositive ts :=
  List.forall_mem_cons

theorem allPositive_nil : AllPositive [] := by
  intro x hx
  cases hx

theorem numbers_join (join : Join) (mark : Mark) (left right : Expr) (opSpan : Span) :
    (join.expr mark left opSpan right).numbers = left.numbers ++ right.numbers := by
  cases join <;> rfl

theorem Decl.allNumbers_append (ds ds' : List Decl) :
    Decl.allNumbers (ds ++ ds') = Decl.allNumbers ds ++ Decl.allNumbers ds' := by
  induction ds with
  | nil => rfl
  | cons d ds ih => simp only [List.cons_append, Decl.allNumbers, ih, List.append_assoc]

namespace Phrase

mutual

/-- The numbers in an expression come from its tokens. -/
theorem Expression.positive {ts : List Token} {s s' : Supply} {e : Expr} :
    Expression ts s e s' → TokensPositive ts → AllPositive e.numbers
  | .plain h, hts => h.positive hts
  | .choice h _ hx _ hy, hts => by
      simp only [tokensPositive_append, tokensPositive_cons] at hts
      obtain ⟨ht, -, hu, -, hv⟩ := hts
      simp only [Expr.numbers, allPositive_append]
      exact ⟨⟨h.positive ht, hx.positive hu⟩, hy.positive hv⟩

theorem Assignment.positive {ts : List Token} {s s' : Supply} {e : Expr} :
    Assignment ts s e s' → TokensPositive ts → AllPositive e.numbers
  | .plain h, hts => h.positive hts
  | .name _ _ hv, hts => hv.positive (tokensPositive_cons.1 (tokensPositive_append.1 hts).2).2
  | .property h _ hv, hts => by
      simp only [tokensPositive_append, tokensPositive_cons] at hts
      obtain ⟨ht, -, hu⟩ := hts
      simp only [Expr.numbers, allPositive_append]
      exact ⟨h.positive ht, hv.positive hu⟩

theorem Operand.positive {level : Option Level} {ts : List Token} {s s' : Supply} {e : Expr} :
    Operand level ts s e s' → TokensPositive ts → AllPositive e.numbers
  | .level h hj, hts => by
      rw [tokensPositive_append] at hts
      exact hj.positive hts.2 (h.positive hts.1)
  | .unary h, hts => h.positive hts

theorem Joins.positive {level : Level} {left : Expr} {ts : List Token} {s s' : Supply} {e : Expr} :
    Joins level left ts s e s' → TokensPositive ts → AllPositive left.numbers →
      AllPositive e.numbers
  | .nil, _, hl => hl
  | .cons _ h hj, hts, hl => by
      simp only [tokensPositive_append, tokensPositive_cons] at hts
      obtain ⟨-, ht, hu⟩ := hts
      refine hj.positive hu ?_
      rw [numbers_join, allPositive_append]
      exact ⟨hl, h.positive ht⟩

theorem Unary.positive {ts : List Token} {s s' : Supply} {e : Expr} :
    Unary ts s e s' → TokensPositive ts → AllPositive e.numbers
  | .operator _ h, hts => h.positive (tokensPositive_cons.1 hts).2
  | .call h hs, hts => by
      rw [tokensPositive_append] at hts
      exact hs.positive hts.2 (h.positive hts.1)

theorem Suffixes.positive {callee : Expr} {ts : List Token} {s s' : Supply} {e : Expr} :
    Suffixes callee ts s e s' → TokensPositive ts → AllPositive callee.numbers →
      AllPositive e.numbers
  | .nil, _, hl => hl
  | .call _ ha _ hs, hts, hl => by
      simp only [tokensPositive_append, tokensPositive_cons] at hts
      obtain ⟨-, ht, -, hu⟩ := hts
      refine hs.positive hu ?_
      simp only [Expr.numbers, allPositive_append]
      exact ⟨hl, ha.positive ht⟩
  | .property _ _ hs, hts, hl =>
      hs.positive (tokensPositive_cons.1 (tokensPositive_cons.1 hts).2).2 hl

theorem ArgumentList.positive {ts : List Token} {s s' : Supply} {es : List Expr} :
    ArgumentList ts s es s' → TokensPositive ts → AllPositive (Expr.allNumbers es)
  | .none, _ => allPositive_nil
  | .some h _, hts => h.positive hts

theorem Arguments.positive {ts : List Token} {s s' : Supply} {es : List Expr} :
    Arguments ts s es s' → TokensPositive ts → AllPositive (Expr.allNumbers es)
  | .last h, hts => allPositive_append.2 ⟨h.positive hts, allPositive_nil⟩
  | .more h _ hs, hts => by
      simp only [tokensPositive_append, tokensPositive_cons] at hts
      obtain ⟨ht, -, hu⟩ := hts
      exact allPositive_append.2 ⟨h.positive ht, hs.positive hu⟩

theorem Primary.positive {ts : List Token} {s s' : Supply} {e : Expr} :
    Primary ts s e s' → TokensPositive ts → AllPositive e.numbers
  | @Primary.constant _ value _ h, hts => by
      cases value with
      | number x => exact List.forall_mem_singleton.2 ((tokensPositive_cons.1 hts).1 x h)
      | _ => exact allPositive_nil
  | .thisWord _, _ => allPositive_nil
  | .superWord _ _ _, _ => allPositive_nil
  | .name _, _ => allPositive_nil
  | .grouping _ h _, hts => h.positive (tokensPositive_append.1 (tokensPositive_cons.1 hts).2).1

end

theorem Optional.positive {ts : List Token} {s s' : Supply} {e : Option Expr} :
    Optional ts s e s' → TokensPositive ts → AllPositive (Expr.allNumbers e.toList)
  | .none, _ => allPositive_nil
  | .some h, hts => allPositive_append.2 ⟨h.positive hts, allPositive_nil⟩

theorem Initializer.positive {ts : List Token} {s s' : Supply} {e : Option Expr} :
    Initializer ts s e s' → TokensPositive ts → AllPositive (Expr.allNumbers e.toList)
  | .none, _ => allPositive_nil
  | .some _ h, hts =>
      allPositive_append.2 ⟨h.positive (tokensPositive_cons.1 hts).2, allPositive_nil⟩

theorem Variable.positive {ts : List Token} {s s' : Supply} {d : Decl} :
    Variable ts s d s' → TokensPositive ts → AllPositive d.numbers
  | .mk _ _ h _, hts =>
      h.positive
        (tokensPositive_append.1 (tokensPositive_cons.1 (tokensPositive_cons.1 hts).2).2).1

theorem LoopInitializer.positive {ts : List Token} {s s' : Supply} {d : Option Decl} :
    LoopInitializer ts s d s' → TokensPositive ts → AllPositive (Decl.allNumbers d.toList)
  | .none _, _ => allPositive_nil
  | .declaration h, hts => allPositive_append.2 ⟨h.positive hts, allPositive_nil⟩
  | .expression h _, hts =>
      allPositive_append.2 ⟨h.positive (tokensPositive_append.1 hts).1, allPositive_nil⟩

theorem LoopCondition.positive {ts : List Token} {s s' : Supply} {e : Expr} :
    LoopCondition ts s e s' → TokensPositive ts → AllPositive e.numbers
  | .none _, _ => allPositive_nil
  | .some h _, hts => h.positive (tokensPositive_append.1 hts).1

/-- The numbers of the block that stands for a `for` loop are those of its parts. -/
theorem forLoop_positive {initializer : Option Decl} {condition : Expr} {increment : Option Expr}
    {body : Stmt} (span : Span) (hi : AllPositive (Decl.allNumbers initializer.toList))
    (hcond : AllPositive condition.numbers)
    (hincr : AllPositive (Expr.allNumbers increment.toList)) (hbody : AllPositive body.numbers) :
    AllPositive (Parser.forLoop initializer condition increment body span).numbers := by
  have hstep :
      Decl.allNumbers (increment.toList.map fun e => .statement (.expression e e.span)) =
        Expr.allNumbers increment.toList := by
    cases increment <;> rfl
  simp only [Parser.forLoop, Stmt.numbers, Decl.allNumbers_append, Decl.allNumbers, Decl.numbers,
    allPositive_append, hstep]
  exact ⟨hi, ⟨hcond, hbody, hincr⟩, allPositive_nil⟩

mutual

/-- **The numbers in declarations come from their tokens.** -/
theorem Declarations.positive {ts : List Token} {s s' : Supply} {ds : List Decl} :
    Declarations ts s ds s' → TokensPositive ts → AllPositive (Decl.allNumbers ds)
  | .nil, _ => allPositive_nil
  | .cons h hs, hts => by
      rw [tokensPositive_append] at hts
      exact allPositive_append.2 ⟨h.positive hts.1, hs.positive hts.2⟩

theorem Declaration.positive {ts : List Token} {s s' : Supply} {d : Decl} :
    Declaration ts s d s' → TokensPositive ts → AllPositive d.numbers
  | .classDecl _ _ _ _ hm _, hts => by
      simp only [tokensPositive_append, tokensPositive_cons] at hts
      obtain ⟨-, -, -, -, hu, -⟩ := hts
      exact hm.positive hu
  | .funDecl _ h, hts => h.positive (tokensPositive_cons.1 hts).2
  | .varDecl h, hts => h.positive hts
  | .statement h, hts => h.positive hts

theorem Methods.positive {ts : List Token} {s s' : Supply} {rs : List Routine} :
    Methods ts s rs s' → TokensPositive ts → AllPositive (Routine.allNumbers rs)
  | .nil, _ => allPositive_nil
  | .cons h hs, hts => by
      rw [tokensPositive_append] at hts
      exact allPositive_append.2 ⟨h.positive hts.1, hs.positive hts.2⟩

theorem Function.positive {ts : List Token} {s s' : Supply} {r : Routine} :
    Function ts s r s' → TokensPositive ts → AllPositive r.numbers
  | .mk _ _ _ _ hb, hts => by
      simp only [tokensPositive_append, tokensPositive_cons] at hts
      obtain ⟨-, -, -, -, hu⟩ := hts
      exact hb.positive hu

theorem Block.positive {ts : List Token} {s s' : Supply} {body : List Decl} :
    Block ts s body s' → TokensPositive ts → AllPositive (Decl.allNumbers body)
  | .mk _ h _, hts => h.positive (tokensPositive_append.1 (tokensPositive_cons.1 hts).2).1

theorem Statement.positive {dangling : Bool} {ts : List Token} {s s' : Supply} {stmt : Stmt} :
    Statement dangling ts s stmt s' → TokensPositive ts → AllPositive stmt.numbers
  | .expression h _, hts => h.positive (tokensPositive_append.1 hts).1
  | .print _ h _, hts => h.positive (tokensPositive_append.1 (tokensPositive_cons.1 hts).2).1
  | .ret _ h _, hts => h.positive (tokensPositive_append.1 (tokensPositive_cons.1 hts).2).1
  | .block h, hts => h.positive hts
  | .ifThen _ _ h _ ht, hts => by
      simp only [tokensPositive_append, tokensPositive_cons] at hts
      obtain ⟨-, -, hc, -, hu⟩ := hts
      exact allPositive_append.2 ⟨h.positive hc, ht.positive hu⟩
  | .ifElse _ _ h _ ht _ he, hts => by
      simp only [tokensPositive_append, tokensPositive_cons] at hts
      obtain ⟨-, -, hc, -, hu, -, hv⟩ := hts
      exact allPositive_append.2
        ⟨allPositive_append.2 ⟨h.positive hc, ht.positive hu⟩, he.positive hv⟩
  | .whileLoop _ _ h _ hb, hts => by
      simp only [tokensPositive_append, tokensPositive_cons] at hts
      obtain ⟨-, -, hc, -, hu⟩ := hts
      exact allPositive_append.2 ⟨h.positive hc, hb.positive hu⟩
  | .forLoop _ _ hi hcond hincr _ hb, hts => by
      simp only [tokensPositive_append, tokensPositive_cons] at hts
      obtain ⟨-, -, ht, hu, hv, -, hw⟩ := hts
      exact forLoop_positive _ (hi.positive ht) (hcond.positive hu) (hincr.positive hv)
        (hb.positive hw)

end

end Phrase

/-- **The tokens of a source have numbers with the positive sign.** -/
theorem tokensPositive_of_scan {source : String} {ts : List Token} (h : scan source = .ok ts) :
    TokensPositive ts := by
  have hliteral : ∀ lexeme x, Lexeme.literal? lexeme = some (.number x) →
      (Decimal.shape x).Positive := by
    intro lexeme x hx
    unfold Lexeme.literal? at hx
    split at hx
    · cases hx
    split at hx
    · cases hx
    split at hx
    · cases hx
      exact Lexeme.positive_numberValue _
    · cases hx
  have hvalue : ∀ {t : Token} {x : Float}, Constant.ofToken? t = some (.number x) →
      t.literal = some (.number x) := by
    intro t x hx
    unfold Constant.ofToken? at hx
    split at hx
    · split at hx <;> cases hx
      assumption
    · split at hx <;> cases hx
      assumption
    all_goals cases hx
  rw [scan_eq] at h
  split at h
  · rename_i herrors
    cases h
    intro t ht x hx
    rcases List.mem_append.1 ht with ht | ht
    · have hsource := Lexeme.shebang_append source.toList
      obtain ⟨-, -, hlexeme, -⟩ :=
        placed_mem hsource.symm (segments_scanFrom herrors) ht
      exact hliteral _ x (hlexeme.symm.trans (hvalue hx))
    · cases List.mem_singleton.1 ht
      cases hx
  · cases h

/-! ### Labels that are counted up -/

mutual

/-- A routine with its labels counted up from a number, and the number behind the last of them.  The
routines in the body come first. -/
def Routine.relabel : Routine → Nat → Routine × Nat
  | .mk _ name params body span, n =>
      (.mk (Decl.allRelabel body n).2 name params (Decl.allRelabel body n).1 span,
        (Decl.allRelabel body n).2 + 1)
termination_by structural r => r

/-- Routines with their labels counted up. -/
def Routine.allRelabel : List Routine → Nat → List Routine × Nat
  | [], n => ([], n)
  | r :: rs, n =>
      ((r.relabel n).1 :: (Routine.allRelabel rs (r.relabel n).2).1,
        (Routine.allRelabel rs (r.relabel n).2).2)
termination_by structural rs => rs

/-- A declaration with its labels counted up. -/
def Decl.relabel : Decl → Nat → Decl × Nat
  | .classDecl name nameSpan superclass methods span, n =>
      (.classDecl name nameSpan superclass (Routine.allRelabel methods n).1 span,
        (Routine.allRelabel methods n).2)
  | .funDecl routine span, n => (.funDecl (routine.relabel n).1 span, (routine.relabel n).2)
  | .varDecl name nameSpan initializer span, n => (.varDecl name nameSpan initializer span, n)
  | .statement stmt, n => (.statement (stmt.relabel n).1, (stmt.relabel n).2)
termination_by structural d => d

/-- Declarations with their labels counted up. -/
def Decl.allRelabel : List Decl → Nat → List Decl × Nat
  | [], n => ([], n)
  | d :: ds, n =>
      ((d.relabel n).1 :: (Decl.allRelabel ds (d.relabel n).2).1,
        (Decl.allRelabel ds (d.relabel n).2).2)
termination_by structural ds => ds

/-- A statement with its labels counted up. -/
def Stmt.relabel : Stmt → Nat → Stmt × Nat
  | .expression e span, n => (.expression e span, n)
  | .print e span, n => (.print e span, n)
  | .ret keyword value span, n => (.ret keyword value span, n)
  | .block body span, n => (.block (Decl.allRelabel body n).1 span, (Decl.allRelabel body n).2)
  | .ifElse condition thenBranch none span, n =>
      (.ifElse condition (thenBranch.relabel n).1 none span, (thenBranch.relabel n).2)
  | .ifElse condition thenBranch (some elseBranch) span, n =>
      (.ifElse condition (thenBranch.relabel n).1
        (some (elseBranch.relabel (thenBranch.relabel n).2).1) span,
        (elseBranch.relabel (thenBranch.relabel n).2).2)
  | .whileLoop condition body span, n =>
      (.whileLoop condition (body.relabel n).1 span, (body.relabel n).2)
termination_by structural s => s

end

/-! ### Counting up forgets the labels there were -/

theorem Relocation.span_unlabelled (s : Span) : Relocation.unlabelled.span s = s := rfl

/-- An expression has no labels. -/
theorem Expr.relocate_unlabelled (e : Expr) : e.relocate .unlabelled = e := by
  have hspan : Relocation.unlabelled.span = Relocation.id.span := rfl
  exact (e.relocate_congr hspan fun _ _ => rfl).trans e.relocate_id

theorem Expr.relocate_unlabelled_option (e : Option Expr) :
    e.map (Expr.relocate .unlabelled) = e := by
  cases e with
  | none => rfl
  | some e => rw [Option.map_some, e.relocate_unlabelled]

theorem Superclass.relocate_unlabelled_option (p : Option Superclass) :
    p.map (Superclass.relocate .unlabelled) = p := by
  cases p <;> rfl

theorem Param.map_relocate_unlabelled (ps : List Param) :
    ps.map (Param.relocate .unlabelled) = ps :=
  List.map_id ps

mutual

theorem Routine.relabel_unlabelled : ∀ (r : Routine) (n : Nat),
    (r.relocate .unlabelled).relabel n = r.relabel n
  | .mk _ _ _ body _, n => by
      simp only [Routine.relocate, Routine.relabel, Param.map_relocate_unlabelled,
        Decl.allRelabel_unlabelled body, Relocation.span_unlabelled]

theorem Routine.allRelabel_unlabelled : ∀ (rs : List Routine) (n : Nat),
    Routine.allRelabel (Routine.allRelocate .unlabelled rs) n = Routine.allRelabel rs n
  | [], _ => rfl
  | r :: rs, n => by
      simp only [Routine.allRelocate, Routine.allRelabel, r.relabel_unlabelled,
        Routine.allRelabel_unlabelled rs]

theorem Decl.relabel_unlabelled : ∀ (d : Decl) (n : Nat),
    (d.relocate .unlabelled).relabel n = d.relabel n
  | .classDecl _ _ _ methods _, n => by
      simp only [Decl.relocate, Decl.relabel, Superclass.relocate_unlabelled_option,
        Routine.allRelabel_unlabelled methods, Relocation.span_unlabelled]
  | .funDecl routine _, n => by
      simp only [Decl.relocate, Decl.relabel, routine.relabel_unlabelled,
        Relocation.span_unlabelled]
  | .varDecl _ _ _ _, n => by
      simp only [Decl.relocate, Decl.relabel, Expr.relocate_unlabelled_option,
        Relocation.span_unlabelled]
  | .statement stmt, n => by simp only [Decl.relocate, Decl.relabel, stmt.relabel_unlabelled]

/-- **Counting up does not look at the labels there were.** -/
theorem Decl.allRelabel_unlabelled : ∀ (ds : List Decl) (n : Nat),
    Decl.allRelabel (Decl.allRelocate .unlabelled ds) n = Decl.allRelabel ds n
  | [], _ => rfl
  | d :: ds, n => by
      simp only [Decl.allRelocate, Decl.allRelabel, d.relabel_unlabelled,
        Decl.allRelabel_unlabelled ds]

theorem Stmt.relabel_unlabelled : ∀ (s : Stmt) (n : Nat),
    (s.relocate .unlabelled).relabel n = s.relabel n
  | .expression e _, n | .print e _, n => by
      simp only [Stmt.relocate, Stmt.relabel, e.relocate_unlabelled, Relocation.span_unlabelled]
  | .ret _ _ _, n => by
      simp only [Stmt.relocate, Stmt.relabel, Expr.relocate_unlabelled_option,
        Relocation.span_unlabelled]
  | .block body _, n => by
      simp only [Stmt.relocate, Stmt.relabel, Decl.allRelabel_unlabelled body,
        Relocation.span_unlabelled]
  | .ifElse condition thenBranch none _, n => by
      simp only [Stmt.relocate, Stmt.relabel, condition.relocate_unlabelled,
        thenBranch.relabel_unlabelled, Relocation.span_unlabelled]
  | .ifElse condition thenBranch (some elseBranch) _, n => by
      simp only [Stmt.relocate, Stmt.relabel, condition.relocate_unlabelled,
        thenBranch.relabel_unlabelled, elseBranch.relabel_unlabelled, Relocation.span_unlabelled]
  | .whileLoop condition body _, n => by
      simp only [Stmt.relocate, Stmt.relabel, condition.relocate_unlabelled,
        body.relabel_unlabelled, Relocation.span_unlabelled]

end

/-! ### The labels of a phrase -/

theorem Decl.allRelabel_append : ∀ (ds ds' : List Decl) (n : Nat),
    Decl.allRelabel (ds ++ ds') n =
      ((Decl.allRelabel ds n).1 ++ (Decl.allRelabel ds' (Decl.allRelabel ds n).2).1,
        (Decl.allRelabel ds' (Decl.allRelabel ds n).2).2)
  | [], _, _ => rfl
  | d :: ds, ds', n => by
      simp only [List.cons_append, Decl.allRelabel, Decl.allRelabel_append ds]

namespace Phrase

mutual

/-- An expression takes no labels. -/
theorem Expression.routine_eq {ts : List Token} {s s' : Supply} {e : Expr} :
    Expression ts s e s' → s'.routine = s.routine
  | .plain h => h.routine_eq
  | .choice h _ hx _ hy => hy.routine_eq.trans (hx.routine_eq.trans h.routine_eq)

theorem Assignment.routine_eq {ts : List Token} {s s' : Supply} {e : Expr} :
    Assignment ts s e s' → s'.routine = s.routine
  | .plain h => h.routine_eq
  | .name h _ hv => hv.routine_eq.trans h.routine_eq
  | .property h _ hv => hv.routine_eq.trans h.routine_eq

theorem Operand.routine_eq {level : Option Level} {ts : List Token} {s s' : Supply} {e : Expr} :
    Operand level ts s e s' → s'.routine = s.routine
  | .level h hj => hj.routine_eq.trans h.routine_eq
  | .unary h => h.routine_eq

theorem Joins.routine_eq {level : Level} {left : Expr} {ts : List Token} {s s' : Supply}
    {e : Expr} : Joins level left ts s e s' → s'.routine = s.routine
  | .nil => rfl
  | .cons _ h hj => hj.routine_eq.trans h.routine_eq

theorem Unary.routine_eq {ts : List Token} {s s' : Supply} {e : Expr} :
    Unary ts s e s' → s'.routine = s.routine
  | .operator _ h => h.routine_eq
  | .call h hs => hs.routine_eq.trans h.routine_eq

theorem Suffixes.routine_eq {callee : Expr} {ts : List Token} {s s' : Supply} {e : Expr} :
    Suffixes callee ts s e s' → s'.routine = s.routine
  | .nil => rfl
  | .call _ ha _ hs => hs.routine_eq.trans ha.routine_eq
  | .property _ _ hs => hs.routine_eq

theorem ArgumentList.routine_eq {ts : List Token} {s s' : Supply} {es : List Expr} :
    ArgumentList ts s es s' → s'.routine = s.routine
  | .none => rfl
  | .some h _ => h.routine_eq

theorem Arguments.routine_eq {ts : List Token} {s s' : Supply} {es : List Expr} :
    Arguments ts s es s' → s'.routine = s.routine
  | .last h => h.routine_eq
  | .more h _ hs => hs.routine_eq.trans h.routine_eq

theorem Primary.routine_eq {ts : List Token} {s s' : Supply} {e : Expr} :
    Primary ts s e s' → s'.routine = s.routine
  | .constant _ | .thisWord _ | .superWord _ _ _ | .name _ => rfl
  | .grouping _ h _ => h.routine_eq

end

theorem Optional.routine_eq {ts : List Token} {s s' : Supply} {e : Option Expr} :
    Optional ts s e s' → s'.routine = s.routine
  | .none => rfl
  | .some h => h.routine_eq

theorem Parent.routine_eq {ts : List Token} {s s' : Supply} {p : Option Superclass} :
    Parent ts s p s' → s'.routine = s.routine
  | .none => rfl
  | .some _ _ => rfl

theorem Initializer.routine_eq {ts : List Token} {s s' : Supply} {e : Option Expr} :
    Initializer ts s e s' → s'.routine = s.routine
  | .none => rfl
  | .some _ h => h.routine_eq

theorem Variable.relabel_eq {ts : List Token} {s s' : Supply} {d : Decl} :
    Variable ts s d s' → d.relabel s.routine = (d, s'.routine)
  | .mk _ _ h _ => by rw [Decl.relabel, h.routine_eq]

theorem LoopInitializer.relabel_eq {ts : List Token} {s s' : Supply} {d : Option Decl} :
    LoopInitializer ts s d s' → Decl.allRelabel d.toList s.routine = (d.toList, s'.routine)
  | .none _ => rfl
  | .declaration h => by simp only [Option.toList, Decl.allRelabel, h.relabel_eq]
  | .expression h _ => by
      simp only [Option.toList, Decl.allRelabel, Decl.relabel, Stmt.relabel, h.routine_eq]

theorem LoopCondition.routine_eq {ts : List Token} {s s' : Supply} {e : Expr} :
    LoopCondition ts s e s' → s'.routine = s.routine
  | .none _ => rfl
  | .some h _ => h.routine_eq

/-- The labels in the block that stands for a `for` loop are those in its parts: neither the
condition nor the step behind the body has any. -/
theorem forLoop_relabel {initializer : Option Decl} {body : Stmt} {n n₁ n₂ : Nat}
    (condition : Expr) (increment : Option Expr) (span : Span)
    (hi : Decl.allRelabel initializer.toList n = (initializer.toList, n₁))
    (hbody : body.relabel n₁ = (body, n₂)) :
    (Parser.forLoop initializer condition increment body span).relabel n =
      (Parser.forLoop initializer condition increment body span, n₂) := by
  have hstep : ∀ m,
      Decl.allRelabel (increment.toList.map fun e => .statement (.expression e e.span)) m =
        (increment.toList.map fun e => .statement (.expression e e.span), m) := by
    intro m
    cases increment <;> rfl
  simp only [Parser.forLoop, Stmt.relabel, Decl.allRelabel_append, Decl.allRelabel, Decl.relabel,
    hi, hbody, hstep]

mutual

/-- **The labels in declarations are counted up** from the one that the supply has. -/
theorem Declarations.relabel_eq {ts : List Token} {s s' : Supply} {ds : List Decl} :
    Declarations ts s ds s' → Decl.allRelabel ds s.routine = (ds, s'.routine)
  | .nil => rfl
  | .cons h hs => by simp only [Decl.allRelabel, h.relabel_eq, hs.relabel_eq]

theorem Declaration.relabel_eq {ts : List Token} {s s' : Supply} {d : Decl} :
    Declaration ts s d s' → d.relabel s.routine = (d, s'.routine)
  | .classDecl _ _ hp _ hm _ => by
      have hmethods := hm.relabel_eq
      rw [hp.routine_eq] at hmethods
      simp only [Decl.relabel, hmethods]
  | .funDecl _ h => by simp only [Decl.relabel, h.relabel_eq]
  | .varDecl h => h.relabel_eq
  | .statement h => by simp only [Decl.relabel, h.relabel_eq]

theorem Methods.relabel_eq {ts : List Token} {s s' : Supply} {rs : List Routine} :
    Methods ts s rs s' → Routine.allRelabel rs s.routine = (rs, s'.routine)
  | .nil => rfl
  | .cons h hs => by simp only [Routine.allRelabel, h.relabel_eq, hs.relabel_eq]

theorem Function.relabel_eq {ts : List Token} {s s' : Supply} {r : Routine} :
    Function ts s r s' → r.relabel s.routine = (r, s'.routine)
  | .mk _ _ _ _ hb => by simp only [Routine.relabel, hb.relabel_eq, Supply.afterRoutine_routine]

theorem Block.relabel_eq {ts : List Token} {s s' : Supply} {body : List Decl} :
    Block ts s body s' → Decl.allRelabel body s.routine = (body, s'.routine)
  | .mk _ h _ => h.relabel_eq

theorem Statement.relabel_eq {dangling : Bool} {ts : List Token} {s s' : Supply} {stmt : Stmt} :
    Statement dangling ts s stmt s' → stmt.relabel s.routine = (stmt, s'.routine)
  | .expression h _ => by rw [Stmt.relabel, h.routine_eq]
  | .print _ h _ => by rw [Stmt.relabel, h.routine_eq]
  | .ret _ h _ => by rw [Stmt.relabel, h.routine_eq]
  | .block h => by simp only [Stmt.relabel, h.relabel_eq]
  | .ifThen _ _ h _ ht => by
      have hthen := ht.relabel_eq
      rw [h.routine_eq] at hthen
      simp only [Stmt.relabel, hthen]
  | .ifElse _ _ h _ ht _ he => by
      have hthen := ht.relabel_eq
      rw [h.routine_eq] at hthen
      simp only [Stmt.relabel, hthen, he.relabel_eq]
  | .whileLoop _ _ h _ hb => by
      have hbody := hb.relabel_eq
      rw [h.routine_eq] at hbody
      simp only [Stmt.relabel, hbody]
  | .forLoop _ _ hi hcond hincr _ hb => by
      have hbody := hb.relabel_eq
      rw [hincr.routine_eq, hcond.routine_eq] at hbody
      exact forLoop_relabel _ _ _ hi.relabel_eq hbody

end

end Phrase

/-! ### Programs and their dumps -/

namespace Program

variable {source : String} {s s' : Supply} {p : Program}

/-- The program of a source is a phrase of its tokens. -/
theorem phrase_of_ofSource (h : ofSource source s = (.ok p, s')) :
    ∃ ts, scan source = .ok ts ∧
      Phrase.Declarations (ts.takeWhile Cursor.isInner) s p.declarations s' := by
  unfold ofSource at h
  cases hscan : scan source with
  | error errors =>
      rw [hscan] at h
      cases h
  | ok ts =>
      rw [hscan] at h
      refine ⟨ts, rfl, parse_phrase ?_⟩
      cases hparse : parse ts s with
      | mk answer s₁ =>
          cases answer with
          | error errors =>
              simp only [hparse] at h
              cases h
          | ok q =>
              simp only [hparse] at h
              cases h
              rfl

/-- The numbers of a program have the positive sign. -/
theorem allPositive_numbers (h : ofSource source s = (.ok p, s')) :
    AllPositive (Decl.allNumbers p.declarations) := by
  obtain ⟨ts, hscan, hphrase⟩ := phrase_of_ofSource h
  have hts := tokensPositive_of_scan hscan
  exact hphrase.positive fun t ht => hts t ((List.takeWhile_sublist _).subset ht)

/-- **Of programs that are equal up to labels, those whose labels begin alike are equal.** -/
theorem eq_of_unlabelled {source₁ source₂ : String} {s₁ s₂ s₁' s₂' : Supply} {p₁ p₂ : Program}
    (h₁ : ofSource source₁ s₁ = (.ok p₁, s₁')) (h₂ : ofSource source₂ s₂ = (.ok p₂, s₂'))
    (hlabel : s₁.routine = s₂.routine)
    (h : Decl.allRelocate .unlabelled p₁.declarations =
      Decl.allRelocate .unlabelled p₂.declarations) : p₁ = p₂ := by
  obtain ⟨ts₁, -, hphrase₁⟩ := phrase_of_ofSource h₁
  obtain ⟨ts₂, -, hphrase₂⟩ := phrase_of_ofSource h₂
  have hcounted : Decl.allRelabel p₁.declarations s₁.routine =
      Decl.allRelabel p₂.declarations s₂.routine := by
    rw [← Decl.allRelabel_unlabelled p₁.declarations, h, hlabel,
      Decl.allRelabel_unlabelled p₂.declarations]
  rw [hphrase₁.relabel_eq, hphrase₂.relabel_eq] at hcounted
  cases p₁
  cases p₂
  exact congrArg mk (Prod.mk.inj hcounted).1

/-- **The dump determines the program.**  Two sources whose programs have the same dump have the same
program up to the labels of the routines, which the dump does not show; and the same labels as well,
if they were taken from the same number on.  The dump itself is a JSON text, it spells the program as
JSON and nothing else, and no object in it repeats a name. -/
theorem dump_determines {source₁ source₂ : String} {s₁ s₂ s₁' s₂' : Supply} {p₁ p₂ : Program}
    (h₁ : ofSource source₁ s₁ = (.ok p₁, s₁')) (h₂ : ofSource source₂ s₂ = (.ok p₂, s₂')) :
    (p₁.dump = p₂.dump → Decl.allRelocate .unlabelled p₁.declarations =
        Decl.allRelocate .unlabelled p₂.declarations ∧ (s₁.routine = s₂.routine → p₁ = p₂)) ∧
      Json.Spells p₁.dump.toList p₁.json [] ∧ p₁.json.Proper ∧
      ∀ j, Json.Spells p₁.dump.toList j [] → j = p₁.json := by
  have hproper := p₁.proper_json
  have hspells := Json.spells_text hproper
  refine ⟨fun hdump => ?_, hspells, hproper, fun j hj => ?_⟩
  · have hjson := Json.text_injective hproper p₂.proper_json hdump
    simp only [json, Json.object.injEq, List.cons.injEq, Prod.mk.injEq, Json.array.injEq, true_and,
      and_true] at hjson
    have hequal := Decl.eq_of_jsons (allPositive_numbers h₁) (allPositive_numbers h₂) hjson
    exact ⟨hequal, fun hlabel => eq_of_unlabelled h₁ h₂ hlabel hequal⟩
  · exact (hj.unique hspells Json.stops_nil Json.stops_nil).1

/-- A routine, and the same with a comment behind it. -/
theorem dump_determines_comment : ∃ p₁ p₂ s₁ s₂,
    ofSource "fun f(x) \x7b\x7d" default = (.ok p₁, s₁) ∧
      ofSource "fun f(x) \x7b\x7d// g" default = (.ok p₂, s₂) ∧
      p₁.declarations = [.funDecl (.mk 0 "f" [⟨"x", ⟨6, 1, 1⟩⟩] [] ⟨4, 7, 1⟩) ⟨0, 11, 1⟩] ∧
      p₁ = p₂ ∧ Json.Spells p₁.dump.toList p₁.json [] ∧ p₁.json.Proper := by
  have hfirst : ∃ s, ofSource "fun f(x) \x7b\x7d" default = (.ok ⟨[.funDecl (.mk 0 "f"
      [⟨"x", ⟨6, 1, 1⟩⟩] [] ⟨4, 7, 1⟩) ⟨0, 11, 1⟩]⟩, s) := by
    have hscan : scan "fun f(x) \x7b\x7d" = .ok [⟨.funWord, "fun", none, ⟨0, 3, 1⟩⟩,
        ⟨.identifier, "f", none, ⟨4, 1, 1⟩⟩, ⟨.leftParen, "(", none, ⟨5, 1, 1⟩⟩,
        ⟨.identifier, "x", none, ⟨6, 1, 1⟩⟩, ⟨.rightParen, ")", none, ⟨7, 1, 1⟩⟩,
        ⟨.leftBrace, "\x7b", none, ⟨9, 1, 1⟩⟩, ⟨.rightBrace, "\x7d", none, ⟨10, 1, 1⟩⟩,
        .finish ⟨11, 0, 1⟩] := by decide +kernel
    rw [ofSource, hscan]
    exact ⟨_, rfl⟩
  have hsecond : ∃ s, ofSource "fun f(x) \x7b\x7d// g" default = (.ok ⟨[.funDecl (.mk 0 "f"
      [⟨"x", ⟨6, 1, 1⟩⟩] [] ⟨4, 7, 1⟩) ⟨0, 11, 1⟩]⟩, s) := by
    have hscan : scan "fun f(x) \x7b\x7d// g" = .ok [⟨.funWord, "fun", none, ⟨0, 3, 1⟩⟩,
        ⟨.identifier, "f", none, ⟨4, 1, 1⟩⟩, ⟨.leftParen, "(", none, ⟨5, 1, 1⟩⟩,
        ⟨.identifier, "x", none, ⟨6, 1, 1⟩⟩, ⟨.rightParen, ")", none, ⟨7, 1, 1⟩⟩,
        ⟨.leftBrace, "\x7b", none, ⟨9, 1, 1⟩⟩, ⟨.rightBrace, "\x7d", none, ⟨10, 1, 1⟩⟩,
        .finish ⟨15, 0, 1⟩] := by decide +kernel
    rw [ofSource, hscan]
    exact ⟨_, rfl⟩
  obtain ⟨s₁, h₁⟩ := hfirst
  obtain ⟨s₂, h₂⟩ := hsecond
  obtain ⟨hdump, hspells, hproper, -⟩ := dump_determines h₁ h₂
  exact ⟨_, _, s₁, s₂, h₁, h₂, rfl, (hdump rfl).2 rfl, hspells, hproper⟩

end Program

end Scriptlet
