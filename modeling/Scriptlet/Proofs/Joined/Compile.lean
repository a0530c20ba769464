/-
**Compiling two sources in one.**

What resolution finds depends on the names of a program alone; numbers and places are only passed
on.  At the top level no scope is open, so the declarations of a source leave nothing to the
resolution of those behind them.  With the scan and the parse of two sources in one this says what
their compilation is: the second source compiles as it would alone, at its new place.

Main definitions:

* `Scriptlet.Resolution.relocate`, `Scriptlet.Finding.relocate` — findings that have moved;
* `Scriptlet.Compiled.relocate`, `Scriptlet.Compiled.append` — a compiled program that has moved,
  and two compiled programs in one.

Main results:

* `Scriptlet.Decl.allFindings_relocate` — **resolution finds the same in a program that has moved**;
* `Scriptlet.Decl.allFindings_append` — declarations at the top level are resolved on their own;
* `Scriptlet.compile_renumbered` — **a source compiles alike with every supply**, errors included;
* `Scriptlet.compile_joined` — **the compilation of two sources in one**;
* `Scriptlet.compile_clamp` — a compiled program points only into its own source.
-/

import Scriptlet.Proofs.Joined.Parse
import Scriptlet.Proofs.Joined.Scan
import Scriptlet.Proofs.Program.Compiled

set_option relaxedAutoImplicit false
set_option autoImplicit false

namespace Scriptlet

variable (φ : Relocation)

/-! ### Findings that have moved -/

/-- A resolution of a reference that has moved. -/
def Resolution.relocate (r : Resolution) : Resolution := { r with id := φ.expr r.id }

/-- A finding that has moved. -/
def Finding.relocate : Finding → Finding
  | .resolved r => .resolved (r.relocate φ)
  | .faulty e => .faulty (e.relocate φ)

theorem Context.clash_relocate (ctx : Context) (name : String) (span : Span) :
    ctx.clash name (φ.span span) = (ctx.clash name span).map (Finding.relocate φ) := by
  unfold clash
  cases ctx.scopes with
  | nil => rfl
  | cons s ss =>
      dsimp only
      split <;> rfl

theorem Context.resolve_relocate (ctx : Context) (id : ExprId) (name : String) :
    ctx.resolve (φ.expr id) name = (ctx.resolve id name).map (Finding.relocate φ) := by
  unfold resolve
  cases ctx.distance? name <;> rfl

mutual

/-- Resolution finds the same in an expression that has moved. -/
theorem Expr.findings_relocate (ctx : Context) : ∀ e : Expr,
    (e.relocate φ).findings ctx = (e.findings ctx).map (Finding.relocate φ)
  | .constant _ _ => rfl
  | .grouping _ inner => inner.findings_relocate ctx
  | .unary _ _ operand => operand.findings_relocate ctx
  | .binary _ left _ _ right => by
      simp only [Expr.relocate, Expr.findings, left.findings_relocate, right.findings_relocate,
        List.map_append]
  | .logical _ left _ right => by
      simp only [Expr.relocate, Expr.findings, left.findings_relocate, right.findings_relocate,
        List.map_append]
  | .ternary _ condition _ thenBranch elseBranch => by
      simp only [Expr.relocate, Expr.findings, condition.findings_relocate,
        thenBranch.findings_relocate, elseBranch.findings_relocate, List.map_append]
  | .variable mark name => by
      simp only [Expr.relocate, Expr.findings, Mark.relocate, Context.resolve_relocate,
        List.map_append]
      cases ctx.inOwnInitializer name <;> rfl
  | .assign mark name value => by
      simp only [Expr.relocate, Expr.findings, value.findings_relocate, List.map_append,
        Mark.relocate, Context.resolve_relocate]
  | .call _ callee arguments _ => by
      simp only [Expr.relocate, Expr.findings, callee.findings_relocate,
        Expr.allFindings_relocate ctx arguments, List.map_append]
  | .get _ object _ => object.findings_relocate ctx
  | .set _ object _ value => by
      simp only [Expr.relocate, Expr.findings, value.findings_relocate, object.findings_relocate,
        List.map_append]
  | .thisRef mark => by
      rw [Expr.relocate, Expr.findings, Expr.findings, apply_ite (List.map _),
        ← Context.resolve_relocate]
      rfl
  | .superRef mark _ => by
      rw [Expr.relocate, Expr.findings, Expr.findings]
      cases ctx.classAround with
      | none => rfl
      | plain => rfl
      | derived => exact ctx.resolve_relocate φ mark.id "super"

theorem Expr.allFindings_relocate (ctx : Context) : ∀ es : List Expr,
    Expr.allFindings ctx (Expr.allRelocate φ es) =
      (Expr.allFindings ctx es).map (Finding.relocate φ)
  | [] => rfl
  | e :: es => by
      simp only [Expr.allRelocate, Expr.allFindings, e.findings_relocate,
        Expr.allFindings_relocate ctx es, List.map_append]

end

theorem Expr.findings_relocate_option (ctx : Context) (e : Option Expr) :
    ((e.map (Expr.relocate φ)).toList.flatMap fun e => e.findings ctx) =
      (e.toList.flatMap fun e => e.findings ctx).map (Finding.relocate φ) := by
  cases e with
  | none => rfl
  | some e => simp [e.findings_relocate]

theorem Param.allFindings_relocate (ctx : Context) (ps : List Param) :
    Param.allFindings ctx (ps.map (Param.relocate φ)) =
      (Param.allFindings ctx ps).map (Finding.relocate φ) := by
  induction ps generalizing ctx with
  | nil => rfl
  | cons p ps ih =>
      simp only [List.map_cons, Param.allFindings, Param.relocate, ih, Context.clash_relocate,
        List.map_append]

theorem Context.inRoutineOf_relocate (ctx : Context) (ps : List Param) :
    ctx.inRoutineOf (ps.map (Param.relocate φ)) = ctx.inRoutineOf ps := by
  unfold inRoutineOf
  rw [List.foldl_map]
  rfl

theorem Context.inClass_relocate (ctx : Context) (parent : Option Superclass) :
    ctx.inClass (parent.map (Superclass.relocate φ)) = ctx.inClass parent := by
  cases parent <;> rfl

theorem Superclass.findings_relocate (ctx : Context) (name : String)
    (parent : Option Superclass) :
    Superclass.findings ctx name (parent.map (Superclass.relocate φ)) =
      (Superclass.findings ctx name parent).map (Finding.relocate φ) := by
  cases parent with
  | none => rfl
  | some parent =>
      simp only [Option.map_some, Superclass.findings, Superclass.relocate, Mark.relocate,
        List.map_append, ← Context.resolve_relocate]
      split <;> rfl

theorem Decl.after_relocate (ctx : Context) (d : Decl) :
    (d.relocate φ).after ctx = d.after ctx := by
  cases d with
  | funDecl routine span => simp [relocate, after]
  | _ => rfl

mutual

theorem Routine.findings_relocate (ctx : Context) : ∀ r : Routine,
    (r.relocate φ).findings ctx = (r.findings ctx).map (Finding.relocate φ)
  | .mk _ _ params body _ => by
      simp only [Routine.relocate, Routine.findings, Param.allFindings_relocate,
        Context.inRoutineOf_relocate, Decl.allFindings_relocate _ body, List.map_append]

theorem Routine.allFindings_relocate (ctx : Context) : ∀ rs : List Routine,
    Routine.allFindings ctx (Routine.allRelocate φ rs) =
      (Routine.allFindings ctx rs).map (Finding.relocate φ)
  | [] => rfl
  | r :: rs => by
      simp only [Routine.allRelocate, Routine.allFindings, r.findings_relocate,
        Routine.allFindings_relocate ctx rs, List.map_append]

theorem Decl.findings_relocate (ctx : Context) : ∀ d : Decl,
    (d.relocate φ).findings ctx = (d.findings ctx).map (Finding.relocate φ)
  | .classDecl _ _ superclass methods _ => by
      simp only [Decl.relocate, Decl.findings, Context.clash_relocate, Superclass.findings_relocate,
        Context.inClass_relocate, Routine.allFindings_relocate _ methods, List.map_append]
  | .funDecl routine _ => by
      simp only [Decl.relocate, Decl.findings, Routine.name_relocate, Routine.span_relocate,
        Context.clash_relocate, routine.findings_relocate, List.map_append]
  | .varDecl _ _ none _ => Context.clash_relocate φ ctx _ _
  | .varDecl _ _ (some value) _ => by
      simp only [Decl.relocate, Option.map_some, Decl.findings, Context.clash_relocate,
        value.findings_relocate, List.map_append]
  | .statement stmt => stmt.findings_relocate ctx

/-- **Resolution finds the same in a program that has moved.** -/
theorem Decl.allFindings_relocate (ctx : Context) : ∀ ds : List Decl,
    Decl.allFindings ctx (Decl.allRelocate φ ds) =
      (Decl.allFindings ctx ds).map (Finding.relocate φ)
  | [] => rfl
  | d :: ds => by
      simp only [Decl.allRelocate, Decl.allFindings, d.findings_relocate, Decl.after_relocate,
        Decl.allFindings_relocate _ ds, List.map_append]

theorem Stmt.findings_relocate (ctx : Context) : ∀ s : Stmt,
    (s.relocate φ).findings ctx = (s.findings ctx).map (Finding.relocate φ)
  | .expression e _ | .print e _ => e.findings_relocate φ ctx
  | .ret _ _ _ => by
      simp only [Stmt.relocate, Stmt.findings, Expr.findings_relocate_option, List.map_append]
      cases ctx.inRoutine <;> rfl
  | .block body _ => Decl.allFindings_relocate (ctx.opening []) body
  | .ifElse condition thenBranch none _ => by
      simp only [Stmt.relocate, Stmt.findings, condition.findings_relocate,
        thenBranch.findings_relocate, List.map_append]
  | .ifElse condition thenBranch (some elseBranch) _ => by
      simp only [Stmt.relocate, Stmt.findings, condition.findings_relocate,
        thenBranch.findings_relocate, elseBranch.findings_relocate, List.map_append]
  | .whileLoop condition body _ => by
      simp only [Stmt.relocate, Stmt.findings, condition.findings_relocate, body.findings_relocate,
        List.map_append]

end

/-! ### Declarations at the top level -/

theorem Decl.after_global (d : Decl) : d.after .global = .global := by
  cases d <;> rfl

/-- Declarations at the top level are resolved on their own. -/
theorem Decl.allFindings_append (ds others : List Decl) :
    Decl.allFindings .global (ds ++ others) =
      Decl.allFindings .global ds ++ Decl.allFindings .global others := by
  induction ds with
  | nil => rfl
  | cons d ds ih =>
      rw [List.cons_append, allFindings, allFindings, after_global, ih, List.append_assoc]

/-! ### Compiled programs -/

/-- A compiled program that has moved. -/
def Compiled.relocate (c : Compiled) : Compiled :=
  ⟨⟨Decl.allRelocate φ c.program.declarations⟩, c.resolutions.map (Resolution.relocate φ)⟩

/-- Two compiled programs in one. -/
def Compiled.append (c d : Compiled) : Compiled :=
  ⟨⟨c.program.declarations ++ d.program.declarations⟩, c.resolutions ++ d.resolutions⟩

theorem Finding.filterMap_error?_relocate (fs : List Finding) :
    (fs.map (Finding.relocate φ)).filterMap Finding.error? =
      (fs.filterMap Finding.error?).map (ScopeError.relocate φ) := by
  rw [List.filterMap_map, List.map_filterMap]
  congr 1
  funext f
  cases f <;> rfl

theorem Finding.filterMap_resolution?_relocate (fs : List Finding) :
    (fs.map (Finding.relocate φ)).filterMap Finding.resolution? =
      (fs.filterMap Finding.resolution?).map (Resolution.relocate φ) := by
  rw [List.filterMap_map, List.map_filterMap]
  congr 1
  funext f
  cases f <;> rfl

/-- A program behind one whose names are in order. -/
theorem Program.compile_append {p : Program} {c : Compiled} (hp : p.compile = .ok c)
    (q : Program) :
    Program.compile ⟨p.declarations ++ Decl.allRelocate φ q.declarations⟩ =
      (q.compile.map fun d => c.append (d.relocate φ)).mapError
        (List.map (CompileError.relocate φ)) := by
  have hfindings : Program.findings ⟨p.declarations ++ Decl.allRelocate φ q.declarations⟩ =
      p.findings ++ q.findings.map (Finding.relocate φ) := by
    rw [findings, Decl.allFindings_append, Decl.allFindings_relocate, findings, findings]
  unfold compile resolve scopeErrors resolutions at hp ⊢
  rw [hfindings, List.filterMap_append, List.filterMap_append,
    Finding.filterMap_error?_relocate, Finding.filterMap_resolution?_relocate]
  cases herrors : p.findings.filterMap Finding.error? with
  | cons e es =>
      rw [herrors] at hp
      cases hp
  | nil =>
      rw [herrors] at hp
      cases hp
      cases q.findings.filterMap Finding.error? with
      | nil => rfl
      | cons e es =>
          simp only [List.nil_append, List.map_cons, Except.map, Except.mapError, List.map_map]
          rfl

/-- A program that has moved. -/
theorem Program.compile_relocate (q : Program) :
    Program.compile ⟨Decl.allRelocate φ q.declarations⟩ =
      (q.compile.map (Compiled.relocate φ)).mapError (List.map (CompileError.relocate φ)) :=
  compile_append φ (p := ⟨[]⟩) (c := ⟨⟨[]⟩, []⟩) rfl q

/-! ### Sources -/

section Sources

variable {φ}

/-- A source compiles alike when the numbers are handed out in another way and its tokens stay in
their places. -/
theorem compile_relocate (hφ : φ.Rigid) {source : String} {s s₁ : Supply} {c : Compiled}
    (hfixed : ∀ ts, scan source = .ok ts → ∀ t ∈ ts, t.relocate φ = t)
    (h : compile source s = (.ok c, s₁)) :
    compile source (s.relocate φ) = (.ok (c.relocate φ), s₁.relocate φ) := by
  obtain ⟨ts, p, hscan, hparse, hcompile⟩ := compile_ok h
  obtain ⟨inner, rfl, hinner⟩ := scan_inner hscan
  have hend : (endToken source.toList).kind = .endOfSource := rfl
  have hmoved := Program.parse_relocate hφ (fun t ht => (hinner t ht).1) hend s
  rw [(List.map_congr_left (hfixed _ hscan)).trans (List.map_id _), hparse] at hmoved
  rw [compile_of_parse hscan hmoved, List.nil_append, Program.compile_relocate, hcompile]
  rfl

/-- A source that compiles. -/
def Compiles (source : String) : Prop := ∃ c, (compile source .full).1 = .ok c

instance (source : String) : Decidable (Compiles source) :=
  match h : (compile source .full).1 with
  | .ok c => .isTrue ⟨c, h⟩
  | .error _ => .isFalse fun ⟨_, hc⟩ => nomatch h.symm.trans hc

namespace Relocation

/-- The relocation that leaves everything in its place and hands out the numbers and labels that a
supply has left. -/
def past (s : Supply) : Relocation := .behind [] s.expr s.routine

theorem rigid_past (s : Supply) : (past s).Rigid := rigid_behind [] s.expr s.routine

theorem full_relocate_past (s : Supply) : Supply.full.relocate (past s) = s := by
  simp [Supply.relocate, Supply.full, past, behind]

end Relocation

/-- An error carries no number. -/
theorem CompileError.relocate_past (s : Supply) (e : CompileError) : e.relocate (.past s) = e := by
  cases e <;> rfl

/-- **A source compiles alike with every supply**: it has the same errors, or gives the same program
with other numbers. -/
theorem compile_renumbered (source : String) (s : Supply) :
    compile source s =
      ((compile source .full).1.map (Compiled.relocate (.past s)),
        (compile source .full).2.relocate (.past s)) := by
  cases hscan : scan source with
  | error errors =>
      simp only [compile, Program.ofSource, hscan, Relocation.full_relocate_past]
      rfl
  | ok ts =>
      obtain ⟨inner, rfl, hinner⟩ := scan_inner hscan
      have hmoved := Program.parse_relocate (Relocation.rigid_past s) (fun t ht => (hinner t ht).1)
        (rfl : (endToken source.toList).kind = .endOfSource) .full
      rw [Relocation.full_relocate_past] at hmoved
      have hplace : (inner ++ [endToken source.toList]).map (Token.relocate (.past s)) =
          inner ++ [endToken source.toList] := List.map_id _
      rw [hplace] at hmoved
      cases hparse : Program.parse (inner ++ [endToken source.toList]) .full with
      | mk result s₁ =>
          rw [hparse] at hmoved
          cases result with
          | error errors =>
              have herrors : errors.map (SyntaxError.relocate (.past s)) = errors := List.map_id _
              simp only [compile, Program.ofSource, hscan, hparse, hmoved, Program.answerBehind,
                herrors]
              rfl
          | ok p =>
              rw [compile_of_parse hscan hparse, compile_of_parse hscan hmoved, List.nil_append,
                Program.compile_relocate]
              cases p.compile with
              | ok c => rfl
              | error errors =>
                  have herrors : errors.map (CompileError.relocate (.past s)) = errors :=
                    (List.map_congr_left fun e _ => e.relocate_past s).trans (List.map_id _)
                  simp only [Except.map, Except.mapError, herrors]

theorem compile_past {source : String} {c : Compiled} {given : Supply}
    (h : compile source .full = (.ok c, given)) (s : Supply) :
    compile source s = (.ok (c.relocate (.past s)), given.relocate (.past s)) := by
  rw [compile_renumbered, h]
  rfl

/-- Whether a source compiles does not depend on the supply. -/
theorem compiles_of_compile {source : String} {s s₁ : Supply} {c : Compiled}
    (h : compile source s = (.ok c, s₁)) : Compiles source := by
  rw [compile_renumbered] at h
  unfold Compiles
  cases hc : (compile source .full).1 with
  | ok d => exact ⟨d, rfl⟩
  | error errors =>
      rw [hc] at h
      cases h

/-- A source that compiles does so with every supply. -/
theorem Compiles.compile {source : String} (h : Compiles source) (s : Supply) :
    ∃ c s', Scriptlet.compile source s = (.ok c, s') := by
  obtain ⟨c, hc⟩ := h
  exact ⟨_, _, compile_past (Prod.ext hc rfl) s⟩

/-- **A compiled program points only into its own source.** -/
theorem compile_clamp {source : String} {s s₁ : Supply} {c : Compiled}
    (h : compile source s = (.ok c, s₁)) :
    c.relocate (.clamp (byteLength source.toList)) = c := by
  suffices hfixed : ∀ ts, scan source = .ok ts → ∀ t ∈ ts,
      t.relocate (.clamp (byteLength source.toList)) = t by
    have hmoved := compile_relocate (Relocation.rigid_clamp _) hfixed h
    exact Except.ok.inj (Prod.mk.inj (hmoved.symm.trans h)).1
  intro ts hscan t ht
  obtain ⟨inner, rfl, hinner⟩ := scan_inner hscan
  have hstop : t.span.stop ≤ byteLength source.toList := by
    rcases List.mem_append.1 ht with ht | ht
    · exact (hinner t ht).2
    · rw [List.mem_singleton.1 ht]
      simp [endToken, Span.stop, Token.finish, Position.span, Position.after_offset,
        Position.start]
  rw [Token.relocate, Relocation.span_clamp hstop]

/-- A source that does not begin with the line of a script, nor with an `else` that would belong to
a statement before it. -/
structure StartsAfresh (source : String) : Prop where
  line : ¬['#', '!'] <+: source.toList
  first : ∀ t ts, scan source = .ok (t :: ts) → t.kind ≠ .elseWord

instance (source : String) : Decidable (StartsAfresh source) :=
  if hline : ['#', '!'] <+: source.toList then .isFalse fun h => h.line hline
  else
    match h : scan source with
    | .ok (t :: ts) =>
        if hkind : t.kind = .elseWord then .isFalse fun hfresh => hfresh.first t ts h hkind
        else .isTrue ⟨hline, fun _ _ heq => by
          cases h.symm.trans heq
          exact hkind⟩
    | .ok [] => .isTrue ⟨hline, fun _ _ heq => nomatch h.symm.trans heq⟩
    | .error _ => .isTrue ⟨hline, fun _ _ heq => nomatch h.symm.trans heq⟩

/-- **The compilation of two sources in one.** -/
theorem compile_joined {A B : String} {s t : Supply} {c : Compiled} (exprs routines : Nat)
    (hA : compile A s = (.ok c, ⟨t.expr + exprs, t.routine + routines⟩)) (hB : StartsAfresh B) :
    (compile (A ++ "\n" ++ B) s).1 =
      ((compile B t).1.map fun d =>
        c.append (d.relocate (.behind (A.toList ++ ['\n']) exprs routines))).mapError
          (List.map (CompileError.relocate (.behind (A.toList ++ ['\n']) exprs routines))) := by
  obtain ⟨ts, p, hscan, hparse, hcompile⟩ := compile_ok hA
  obtain ⟨inner, hinner, hjoined⟩ := scan_joined hscan hB.line exprs routines
  obtain ⟨inner₁, hinner₁, hkinds⟩ := scan_inner hscan
  obtain rfl := List.append_cancel_right (hinner₁.symm.trans hinner)
  subst hinner
  cases hscanB : scan B with
  | error errors =>
      rw [hscanB] at hjoined
      simp only [compile, Program.ofSource, hjoined, hscanB, Except.map, Except.mapError,
        List.map_map]
      rfl
  | ok us =>
      rw [hscanB] at hjoined
      obtain ⟨inner', rfl, hkinds'⟩ := scan_inner hscanB
      have hhead : (inner'.headD (endToken B.toList)).kind ≠ .elseWord := by
        cases inner' with
        | nil => exact hB.first _ _ hscanB
        | cons u us => exact hB.first _ _ hscanB
      have hread := Program.parse_joined
        (Relocation.rigid_behind (A.toList ++ ['\n']) exprs routines)
        (fun t ht => (hkinds t ht).1) rfl (fun t ht => (hkinds' t ht).1) rfl hhead hparse rfl
      cases hq : Program.parse (inner' ++ [endToken B.toList]) t with
      | mk result t₁ =>
          rw [hq] at hread
          cases result with
          | ok q =>
              rw [compile_of_parse hjoined hread, compile_of_parse hscanB hq]
              exact Program.compile_append _ hcompile q
          | error errors =>
              simp only [compile, Program.ofSource, hjoined, hscanB, hread, hq,
                Program.answerBehind, Except.map, Except.mapError, List.map_map]
              rfl

end Sources

end Scriptlet
