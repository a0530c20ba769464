/-
**What a program is depends on what its tokens say.**

The grammar looks at the kinds, the lexemes and the literals of tokens, and not at their places.  A
program without numbers, labels and places is one that has been moved so that all of these are
blank, and tokens that say the same cannot be told apart once they have been moved to one place.

Main definitions:

* `Scriptlet.Relocation.flat`, `Scriptlet.Relocation.blank` — everything at one place, and without
  numbers and labels as well.

Main results:

* `Scriptlet.Decl.allBare_eq` — a bare tree is one that has been moved;
* `Scriptlet.Grammar.Derives.of_content` — **tokens that say the same derive the same programs**.
-/

import Scriptlet.Proofs.Joined.Parse
import Scriptlet.Proofs.Program.Completeness
import Scriptlet.Proofs.Token.Spacing

set_option relaxedAutoImplicit false
set_option autoImplicit false

namespace Scriptlet

/-! ### Everything at one place -/

/-- The relocation that moves everything to one place. -/
def Relocation.flat : Relocation := ⟨fun _ => default, fun n => n, fun n => n⟩

/-- The relocation that also takes away all numbers and labels. -/
def Relocation.blank : Relocation := ⟨fun _ => default, fun _ => 0, fun _ => 0⟩

theorem Relocation.rigid_flat : flat.Rigid := ⟨fun _ _ => rfl, fun _ => rfl, fun _ => rfl⟩

theorem Relocation.blank_comp_flat : blank.comp flat = blank := rfl

/-- Tokens that say the same are the same at one place. -/
theorem Token.map_relocate_flat {ts us : List Token} (h : ts.map content = us.map content) :
    ts.map (relocate .flat) = us.map (relocate .flat) := by
  have hflat : relocate .flat = (fun c => ⟨c.1, c.2.1, c.2.2, default⟩) ∘ content := rfl
  rw [hflat, ← List.map_map, h, List.map_map]

/-! ### Bare trees -/

theorem Mark.relocate_blank (m : Mark) : m.relocate .blank = default := rfl

theorem Relocation.span_blank (s : Span) : Relocation.blank.span s = default := rfl

theorem Relocation.routine_blank (label : Nat) : Relocation.blank.routine label = 0 := rfl

mutual

theorem Expr.bare_eq : ∀ e : Expr, e.bare = e.relocate .blank
  | .constant _ _ | .variable _ _ | .thisRef _ | .superRef _ _ => rfl
  | .grouping _ inner => congrArg (Expr.grouping _) inner.bare_eq
  | .unary _ _ operand => congrArg (Expr.unary _ _) operand.bare_eq
  | .binary _ left _ _ right => by
      simp only [Expr.bare, Expr.relocate, left.bare_eq, right.bare_eq, Mark.relocate_blank,
        Relocation.span_blank]
  | .logical _ left _ right => by
      simp only [Expr.bare, Expr.relocate, left.bare_eq, right.bare_eq, Mark.relocate_blank]
  | .ternary _ condition _ thenBranch elseBranch => by
      simp only [Expr.bare, Expr.relocate, condition.bare_eq, thenBranch.bare_eq,
        elseBranch.bare_eq, Mark.relocate_blank, Relocation.span_blank]
  | .assign _ _ value => congrArg (Expr.assign _ _) value.bare_eq
  | .call _ callee arguments _ => by
      simp only [Expr.bare, Expr.relocate, callee.bare_eq, Expr.allBare_eq arguments,
        Mark.relocate_blank, Relocation.span_blank]
  | .get _ object _ => by
      simp only [Expr.bare, Expr.relocate, object.bare_eq, Mark.relocate_blank]
  | .set _ object _ value => by
      simp only [Expr.bare, Expr.relocate, object.bare_eq, value.bare_eq, Mark.relocate_blank]

theorem Expr.allBare_eq : ∀ es : List Expr, Expr.allBare es = Expr.allRelocate .blank es
  | [] => rfl
  | e :: es => by rw [Expr.allBare, Expr.allRelocate, e.bare_eq, Expr.allBare_eq es]

end

theorem Expr.bare_eq_option (e : Option Expr) : e.map Expr.bare = e.map (Expr.relocate .blank) := by
  cases e with
  | none => rfl
  | some e => rw [Option.map_some, Option.map_some, e.bare_eq]

theorem Superclass.bare_eq : Superclass.bare = Superclass.relocate .blank := rfl

theorem Param.bare_eq : Param.bare = Param.relocate .blank := rfl

mutual

theorem Routine.bare_eq : ∀ r : Routine, r.bare = r.relocate .blank
  | .mk _ _ params body _ => by
      simp only [Routine.bare, Routine.relocate, Param.bare_eq, Decl.allBare_eq body,
        Relocation.routine_blank, Relocation.span_blank]

theorem Routine.allBare_eq : ∀ rs : List Routine, Routine.allBare rs = Routine.allRelocate .blank rs
  | [] => rfl
  | r :: rs => by rw [Routine.allBare, Routine.allRelocate, r.bare_eq, Routine.allBare_eq rs]

theorem Decl.bare_eq : ∀ d : Decl, d.bare = d.relocate .blank
  | .classDecl _ _ _ methods _ => by
      simp only [Decl.bare, Decl.relocate, Superclass.bare_eq, Routine.allBare_eq methods,
        Relocation.span_blank]
  | .funDecl routine _ => by
      simp only [Decl.bare, Decl.relocate, routine.bare_eq, Relocation.span_blank]
  | .varDecl _ _ _ _ => by
      simp only [Decl.bare, Decl.relocate, Expr.bare_eq_option, Relocation.span_blank]
  | .statement stmt => congrArg Decl.statement stmt.bare_eq

/-- **A bare tree is one that has been moved** so that all numbers, labels and places are blank. -/
theorem Decl.allBare_eq : ∀ ds : List Decl, Decl.allBare ds = Decl.allRelocate .blank ds
  | [] => rfl
  | d :: ds => by rw [Decl.allBare, Decl.allRelocate, d.bare_eq, Decl.allBare_eq ds]

theorem Stmt.bare_eq : ∀ s : Stmt, s.bare = s.relocate .blank
  | .expression e _ | .print e _ => by
      simp only [Stmt.bare, Stmt.relocate, e.bare_eq, Relocation.span_blank]
  | .ret _ _ _ => by
      simp only [Stmt.bare, Stmt.relocate, Expr.bare_eq_option, Relocation.span_blank]
  | .block body _ => by
      simp only [Stmt.bare, Stmt.relocate, Decl.allBare_eq body, Relocation.span_blank]
  | .ifElse condition thenBranch none _ => by
      simp only [Stmt.bare, Stmt.relocate, condition.bare_eq, thenBranch.bare_eq,
        Relocation.span_blank]
  | .ifElse condition thenBranch (some elseBranch) _ => by
      simp only [Stmt.bare, Stmt.relocate, condition.bare_eq, thenBranch.bare_eq,
        elseBranch.bare_eq, Relocation.span_blank]
  | .whileLoop condition body _ => by
      simp only [Stmt.bare, Stmt.relocate, condition.bare_eq, body.bare_eq, Relocation.span_blank]

end

/-- Trees that are the same at one place are the same without places. -/
theorem Decl.allBare_of_flat {ds es : List Decl}
    (h : Decl.allRelocate .flat ds = Decl.allRelocate .flat es) :
    Decl.allBare ds = Decl.allBare es := by
  rw [Decl.allBare_eq, Decl.allBare_eq, ← Relocation.blank_comp_flat, ← Decl.allRelocate_comp,
    ← Decl.allRelocate_comp, h]

/-! ### Tokens that say the same -/

/-- The tokens in front of the one that ends a source. -/
theorem Cursor.takeWhile_isInner {inner : List Token} {finish : Token}
    (hinner : ∀ t ∈ inner, isInner t = true) (hfinish : finish.kind = .endOfSource) :
    (inner ++ [finish]).takeWhile isInner = inner := by
  rw [List.takeWhile_append_of_pos hinner]
  simp [isInner, hfinish]

/-- **Tokens that say the same derive the same programs.** -/
theorem Grammar.Derives.of_content {ts us : List Token} {p : Program} (h : Derives ts p)
    (hts : ∀ t ∈ ts, Cursor.isInner t = true) (hus : ∀ u ∈ us, Cursor.isInner u = true)
    (hcontent : ts.map Token.content = us.map Token.content) : Derives us p := by
  have htake : ∀ {vs : List Token}, (∀ v ∈ vs, Cursor.isInner v = true) →
      (vs ++ [Token.finish default]).takeWhile Cursor.isInner = vs :=
    fun hvs => Cursor.takeWhile_isInner hvs rfl
  -- both lists are parsed as what they are at one place, where they are the same
  have hfinish : (Token.finish default).kind = .endOfSource := rfl
  have hwhole : Derives ((ts ++ [Token.finish default]).takeWhile Cursor.isInner) p := by
    rwa [htake hts]
  obtain ⟨p', s, hp, rfl⟩ := Program.parse_of_derives default hwhole
  have hmoved := Program.parse_relocate Relocation.rigid_flat hts hfinish default
  rw [hp, List.map_append, Token.map_relocate_flat hcontent, ← List.map_append,
    Program.parse_relocate Relocation.rigid_flat hus rfl] at hmoved
  cases hq : Program.parse (us ++ [.finish default]) default with
  | mk answer s' =>
      rw [hq] at hmoved
      cases answer with
      | error errors => cases hmoved
      | ok q =>
          have hflat : Decl.allRelocate .flat q.declarations =
              Decl.allRelocate .flat p'.declarations := by
            simpa [Program.answerBehind] using congrArg Prod.fst hmoved
          have hderives := (Program.parse_iff_derives (us ++ [.finish default]) default).1 q.bare
          rw [htake hus] at hderives
          have hbare : q.bare = p'.bare := congrArg Program.mk (Decl.allBare_of_flat hflat)
          exact hbare ▸ hderives.1 ⟨q, s', hq, rfl⟩

end Scriptlet
