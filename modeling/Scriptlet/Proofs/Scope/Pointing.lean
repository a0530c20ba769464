/-
**What the errors of a compilation point at.**

Each stage takes the places of its errors from something else: the scan from the character at which
it is, the parser from a token, resolution from the tree.  A token and a node of the tree stand for
a stretch of the source, so an error of the last two stages points at whole characters, or at the
end of the source, which has no character and for which one byte is kept.  The scan knows how long
an opening quote and the opening of a comment are; for a character that begins nothing it keeps one
byte as well, whatever the character.  So a place ends inside a character exactly where that
character begins nothing and has more than one byte.

Main definitions:

* `Scriptlet.Node.PointsAt` — a place of a node, or of one below it;
* `Scriptlet.Mention.place` — the place of a mention.

Main results:

* `Scriptlet.Program.scopeErrors_pointed` — an error of resolution has a place of the program;
* `Scriptlet.Span.not_marks_of_splits` — one byte of a longer character is no stretch of a source;
* `Scriptlet.scanErrors_placed`, `Scriptlet.Program.syntaxErrors_placed`,
  `Scriptlet.Program.scopeErrors_marked` — the places of the errors of each stage;
* `Scriptlet.compile_errors_placed` — **the places of the errors of a compilation**.
-/

import Scriptlet.Proofs.Joined.Parse
import Scriptlet.Proofs.Program.Charges
import Scriptlet.Proofs.Program.Placement
import Scriptlet.Proofs.Scope.Offences
import Scriptlet.Proofs.Token.Mending

set_option relaxedAutoImplicit false
set_option autoImplicit false

namespace Scriptlet

/-! ### The places of mentions -/

/-- The place of a mention. -/
def Mention.place : Mention → Span
  | .read mark _ | .write mark _ | .receiver mark | .ancestor mark | .parent mark _ _ => mark.span
  | .declared _ span => span
  | .returned keyword => keyword
  | .routine r => r.span

/-- A place of a node, or of one below it. -/
def Node.PointsAt (n : Node) (s : Span) : Prop := ∃ m, n.Below m ∧ s ∈ m.span :: m.landmarks

namespace Node.PointsAt

variable {n c : Node} {s : Span}

theorem span (n : Node) : n.PointsAt n.span := ⟨n, .refl, List.mem_cons_self⟩

theorem landmark (h : s ∈ n.landmarks) : n.PointsAt s := ⟨n, .refl, List.mem_cons_of_mem _ h⟩

theorem child (hc : c ∈ n.children) (h : c.PointsAt s) : n.PointsAt s := by
  obtain ⟨m, hm, hs⟩ := h
  exact ⟨m, .head hc hm, hs⟩

end Node.PointsAt

open Node (PointsAt)

mutual

/-- The sites of an expression are places of it. -/
theorem Expr.sites_pointed (ctx : Context) : ∀ e : Expr, ∀ s ∈ e.sites ctx,
    (Node.expr e).PointsAt s.mention.place
  | .constant _ _, _, h => by cases h
  | .grouping _ inner, s, h =>
      .child List.mem_cons_self (inner.sites_pointed ctx s h)
  | .unary _ _ operand, s, h => .child List.mem_cons_self (operand.sites_pointed ctx s h)
  | .binary _ left _ _ right, s, h =>
      (List.mem_append.1 h).elim
        (fun h => .child List.mem_cons_self (left.sites_pointed ctx s h))
        (fun h => .child (List.mem_cons_of_mem _ List.mem_cons_self) (right.sites_pointed ctx s h))
  | .logical _ left _ right, s, h =>
      (List.mem_append.1 h).elim
        (fun h => .child List.mem_cons_self (left.sites_pointed ctx s h))
        (fun h => .child (List.mem_cons_of_mem _ List.mem_cons_self) (right.sites_pointed ctx s h))
  | .ternary _ condition _ thenBranch elseBranch, s, h => by
      rcases List.mem_append.1 h with h | h
      · rcases List.mem_append.1 h with h | h
        · exact .child List.mem_cons_self (condition.sites_pointed ctx s h)
        · exact .child (List.mem_cons_of_mem _ List.mem_cons_self)
            (thenBranch.sites_pointed ctx s h)
      · exact .child (List.mem_cons_of_mem _ (List.mem_cons_of_mem _ List.mem_cons_self))
          (elseBranch.sites_pointed ctx s h)
  | .variable mark name, s, h => by
      rw [List.mem_singleton.1 h]
      exact .span (.expr (.variable mark name))
  | .assign mark name value, s, h => by
      rcases List.mem_append.1 h with h | h
      · exact .child List.mem_cons_self (value.sites_pointed ctx s h)
      · rw [List.mem_singleton.1 h]
        exact .span (.expr (.assign mark name value))
  | .call _ callee arguments _, s, h => by
      rcases List.mem_append.1 h with h | h
      · exact .child List.mem_cons_self (callee.sites_pointed ctx s h)
      · obtain ⟨e, he, hs⟩ := Expr.allSites_pointed ctx arguments s h
        exact .child (List.mem_cons_of_mem _ (List.mem_map_of_mem he)) hs
  | .get _ object _, s, h => .child List.mem_cons_self (object.sites_pointed ctx s h)
  | .set _ object _ value, s, h =>
      (List.mem_append.1 h).elim
        (fun h => .child (List.mem_cons_of_mem _ List.mem_cons_self) (value.sites_pointed ctx s h))
        (fun h => .child List.mem_cons_self (object.sites_pointed ctx s h))
  | .thisRef mark, s, h => by
      rw [List.mem_singleton.1 h]
      exact .span (.expr (.thisRef mark))
  | .superRef mark method, s, h => by
      rw [List.mem_singleton.1 h]
      exact .span (.expr (.superRef mark method))

theorem Expr.allSites_pointed (ctx : Context) : ∀ es : List Expr, ∀ s ∈ Expr.allSites ctx es,
    ∃ e ∈ es, (Node.expr e).PointsAt s.mention.place
  | [], _, h => by cases h
  | e :: es, s, h => by
      rcases List.mem_append.1 h with h | h
      · exact ⟨e, List.mem_cons_self, e.sites_pointed ctx s h⟩
      · obtain ⟨e', he', hs⟩ := Expr.allSites_pointed ctx es s h
        exact ⟨e', List.mem_cons_of_mem _ he', hs⟩

end

theorem Param.allSites_pointed (ctx : Context) (ps : List Param) :
    ∀ s ∈ Param.allSites ctx ps, ∃ p ∈ ps, s.mention.place = p.span := by
  induction ps generalizing ctx with
  | nil => nofun
  | cons p ps ih =>
      intro s h
      rcases List.mem_cons.1 h with rfl | h
      · exact ⟨p, List.mem_cons_self, rfl⟩
      · obtain ⟨p', hp', hs⟩ := ih _ s h
        exact ⟨p', List.mem_cons_of_mem _ hp', hs⟩

mutual

/-- The sites of a routine are places of it. -/
theorem Routine.sites_pointed (ctx : Context) : ∀ r : Routine, ∀ s ∈ r.sites ctx,
    (Node.routine r).PointsAt s.mention.place
  | .mk label name params body span, s, h => by
      rcases List.mem_cons.1 h with rfl | h
      · exact .span (.routine (.mk label name params body span))
      rcases List.mem_append.1 h with h | h
      · obtain ⟨p, hp, hs⟩ := Param.allSites_pointed _ params s h
        rw [hs]
        exact .child (List.mem_append_left _ (List.mem_map_of_mem hp)) (.span (.param p))
      · obtain ⟨d, hd, hs⟩ := Decl.allSites_pointed _ body s h
        exact .child (List.mem_append_right _ (List.mem_map_of_mem hd)) hs

theorem Routine.allSites_pointed (ctx : Context) : ∀ rs : List Routine,
    ∀ s ∈ Routine.allSites ctx rs, ∃ r ∈ rs, (Node.routine r).PointsAt s.mention.place
  | [], _, h => by cases h
  | r :: rs, s, h => by
      rcases List.mem_append.1 h with h | h
      · exact ⟨r, List.mem_cons_self, r.sites_pointed ctx s h⟩
      · obtain ⟨r', hr', hs⟩ := Routine.allSites_pointed ctx rs s h
        exact ⟨r', List.mem_cons_of_mem _ hr', hs⟩

/-- The sites of a declaration are places of it. -/
theorem Decl.sites_pointed (ctx : Context) : ∀ d : Decl, ∀ s ∈ d.sites ctx,
    (Node.decl d).PointsAt s.mention.place
  | .classDecl name nameSpan superclass methods span, s, h => by
      rcases List.mem_cons.1 h with rfl | h
      · exact .landmark List.mem_cons_self
      rcases List.mem_append.1 h with h | h
      · cases superclass with
        | none => cases h
        | some parent =>
            rw [List.mem_singleton.1 h]
            exact .child List.mem_cons_self (.span (.superclass parent))
      · obtain ⟨r, hr, hs⟩ := Routine.allSites_pointed _ methods s h
        exact .child (List.mem_append_right _ (List.mem_map_of_mem hr)) hs
  | .funDecl routine _, s, h => by
      refine .child List.mem_cons_self ?_
      rcases List.mem_cons.1 h with rfl | h
      · exact .span (.routine routine)
      · exact routine.sites_pointed _ s h
  | .varDecl _ _ none _, s, h => by
      rw [List.mem_singleton.1 h]
      exact .landmark List.mem_cons_self
  | .varDecl _ _ (some value) _, s, h => by
      rcases List.mem_cons.1 h with rfl | h
      · exact .landmark List.mem_cons_self
      · exact .child List.mem_cons_self (value.sites_pointed _ s h)
  | .statement stmt, s, h => .child List.mem_cons_self (stmt.sites_pointed ctx s h)

theorem Decl.allSites_pointed (ctx : Context) : ∀ ds : List Decl, ∀ s ∈ Decl.allSites ctx ds,
    ∃ d ∈ ds, (Node.decl d).PointsAt s.mention.place
  | [], _, h => by cases h
  | d :: ds, s, h => by
      rcases List.mem_append.1 h with h | h
      · exact ⟨d, List.mem_cons_self, d.sites_pointed ctx s h⟩
      · obtain ⟨d', hd', hs⟩ := Decl.allSites_pointed _ ds s h
        exact ⟨d', List.mem_cons_of_mem _ hd', hs⟩

/-- The sites of a statement are places of it. -/
theorem Stmt.sites_pointed (ctx : Context) : ∀ stmt : Stmt, ∀ s ∈ stmt.sites ctx,
    (Node.stmt stmt).PointsAt s.mention.place
  | .expression e _, s, h => .child List.mem_cons_self (e.sites_pointed ctx s h)
  | .print e _, s, h => .child List.mem_cons_self (e.sites_pointed ctx s h)
  | .ret _ none _, s, h => by
      rw [List.mem_singleton.1 h]
      exact .landmark List.mem_cons_self
  | .ret _ (some value) _, s, h => by
      rcases List.mem_cons.1 h with rfl | h
      · exact .landmark List.mem_cons_self
      · exact .child List.mem_cons_self (value.sites_pointed ctx s h)
  | .block body _, s, h => by
      obtain ⟨d, hd, hs⟩ := Decl.allSites_pointed _ body s h
      exact .child (List.mem_map_of_mem hd) hs
  | .ifElse condition thenBranch none _, s, h =>
      (List.mem_append.1 h).elim
        (fun h => .child List.mem_cons_self (condition.sites_pointed ctx s h))
        (fun h => .child (List.mem_cons_of_mem _ List.mem_cons_self)
          (thenBranch.sites_pointed ctx s h))
  | .ifElse condition thenBranch (some elseBranch) _, s, h => by
      rcases List.mem_append.1 h with h | h
      · rcases List.mem_append.1 h with h | h
        · exact .child List.mem_cons_self (condition.sites_pointed ctx s h)
        · exact .child (List.mem_cons_of_mem _ List.mem_cons_self)
            (thenBranch.sites_pointed ctx s h)
      · exact .child (List.mem_cons_of_mem _ (List.mem_cons_of_mem _ List.mem_cons_self))
          (elseBranch.sites_pointed ctx s h)
  | .whileLoop condition body _, s, h =>
      (List.mem_append.1 h).elim
        (fun h => .child List.mem_cons_self (condition.sites_pointed ctx s h))
        (fun h => .child (List.mem_cons_of_mem _ List.mem_cons_self) (body.sites_pointed ctx s h))

end

/-- A reference alone is no fault. -/
theorem Context.not_faulty_resolve (ctx : Context) (id : ExprId) (name : String) (e : ScopeError) :
    .faulty e ∉ ctx.resolve id name := by
  unfold resolve
  cases ctx.distance? name <;> simp

/-- A fault has the place of the mention. -/
theorem Site.span_of_faulty {s : Site} {e : ScopeError} (h : .faulty e ∈ s.findings) :
    e.span = s.mention.place := by
  obtain ⟨ctx, mention⟩ := s
  unfold findings at h
  cases mention with
  | read mark name =>
      rcases List.mem_append.1 h with h | h
      · split at h
        · cases List.mem_singleton.1 h
          rfl
        · cases h
      · exact absurd h (ctx.not_faulty_resolve _ _ e)
  | write mark name => exact absurd h (ctx.not_faulty_resolve _ _ e)
  | receiver mark =>
      dsimp only at h
      split at h
      · cases List.mem_singleton.1 h
        rfl
      · exact absurd h (ctx.not_faulty_resolve _ _ e)
  | ancestor mark =>
      dsimp only at h
      split at h
      · cases List.mem_singleton.1 h
        rfl
      · cases List.mem_singleton.1 h
        rfl
      · exact absurd h (ctx.not_faulty_resolve _ _ e)
  | parent mark name className =>
      rcases List.mem_append.1 h with h | h
      · split at h
        · cases List.mem_singleton.1 h
          rfl
        · cases h
      · exact absurd h (ctx.not_faulty_resolve _ _ e)
  | declared name span =>
      dsimp only [Context.clash] at h
      split at h
      · cases h
      · split at h
        · cases List.mem_singleton.1 h
          rfl
        · cases h
  | returned keyword =>
      dsimp only at h
      split at h
      · cases h
      · cases List.mem_singleton.1 h
        rfl
  | routine r => cases h

/-- **An error of resolution has a place of the program.** -/
theorem Program.scopeErrors_pointed {p : Program} {e : ScopeError} (he : e ∈ p.scopeErrors) :
    ∃ d ∈ p.declarations, (Node.decl d).PointsAt e.span := by
  obtain ⟨f, hf, hfault⟩ := List.mem_filterMap.1 he
  obtain rfl : f = .faulty e := by
    cases f with
    | resolved r => cases hfault
    | faulty e' => exact congrArg _ (Option.some.inj hfault)
  rw [p.findings_eq] at hf
  obtain ⟨s, hs, hfaulty⟩ := List.mem_flatMap.1 hf
  rw [Site.span_of_faulty hfaulty]
  exact Decl.allSites_pointed .global p.declarations s hs

/-! ### Places in a source -/

namespace Span

variable {source : String}

/-- What stands behind one part of a source and in front of another is marked by its size. -/
theorem marks_of_append {before : List Char} (text rest : List Char)
    (h : source.toList = before ++ (text ++ rest)) :
    Marks source ⟨byteLength before, byteLength text, 1 + before.count '\n'⟩ := by
  refine ⟨String.ofList before, String.ofList text, String.ofList rest, ?_, ?_⟩
  · rw [← String.toList_inj, h]
    simp
  · simp only [Lexeme.utf8ByteSize_ofList, String.toList_ofList]

/-- **One byte of a longer character is no stretch of a source.** -/
theorem not_marks_of_splits {before rest : List Char} {c : Char} {line : Nat}
    (h : source.toList = before ++ c :: rest) (hc : 1 < c.utf8Size) :
    ¬Marks source ⟨byteLength before, 1, line⟩ := by
  rintro ⟨front, text, behind, rfl, hspan⟩
  obtain ⟨hoffset, hlen, -⟩ := Span.mk.inj hspan
  rw [utf8ByteSize_eq] at hoffset hlen
  -- the stretch would end between the character's first byte and its last
  have hthrough : front.toList ++ text.toList <+: (front ++ text ++ behind).toList :=
    ⟨behind.toList, by simp⟩
  have hwith : before ++ [c] <+: (front ++ text ++ behind).toList := ⟨rest, by simp [h]⟩
  have hbefore : before <+: (front ++ text ++ behind).toList := ⟨c :: rest, h.symm⟩
  have hle : front.toList ++ text.toList <+: before ++ [c] :=
    prefix_of_byteLength_le hthrough hwith (by
      simp only [byteLength_append, byteLength_cons, byteLength_nil]
      omega)
  have hge : before <+: front.toList ++ text.toList :=
    prefix_of_byteLength_le hbefore hthrough (by
      rw [byteLength_append]
      omega)
  obtain ⟨more, hmore⟩ := hge
  rw [← hmore, List.prefix_append_right_inj] at hle
  have hsize := congrArg byteLength hmore
  rw [byteLength_append, byteLength_append] at hsize
  rcases List.prefix_cons_iff.1 hle with rfl | ⟨none, rfl, hnil⟩
  · rw [byteLength_nil] at hsize
    omega
  · rw [List.prefix_nil.1 hnil, byteLength_cons, byteLength_nil] at hsize
    omega

end Span

/-! ### The errors of each stage -/

theorem Lexeme.utf8Size_of_isQuote {c : Char} (h : isQuote c = true) : c.utf8Size = 1 := by
  rcases Bool.or_eq_true_iff.1 h with h | h
  all_goals
    rw [eq_of_beq h]
    rfl

/-- **The places of the errors of a scan.**  A character that begins nothing and has more than one
byte is cut behind its first byte; all else is whole. -/
theorem scanErrors_placed {source : String} {errors : List ScanError}
    (h : scan source = .error errors) {e : ScanError} (he : e ∈ errors) :
    e.span.Marks source ∨ ∃ (c : Char) (before rest : List Char), 1 < c.utf8Size ∧
      source.toList = before ++ c :: rest ∧
      e = ⟨.unexpectedCharacter c, ⟨byteLength before, 1, 1 + before.count '\n'⟩⟩ := by
  obtain ⟨rfl, -⟩ := scan_error h
  have hall := (errors_scanFrom (Position.start.after (Lexeme.shebang source.toList).1)
    (Lexeme.shebang source.toList).2).behind
  rw [Lexeme.shebang_append] at hall
  obtain ⟨before, text, hsource, hplace, hopens⟩ := hall.place e he
  have hspan : e.span = ⟨byteLength before, e.fault.reach, 1 + before.count '\n'⟩ := by
    rw [hplace]
    simp [ScanFault.found, Position.span, Position.after_offset, Position.after_line,
      Position.start]
  obtain ⟨fault, span⟩ := e
  dsimp only at hspan hopens ⊢
  subst hspan
  cases hopens with
  | @unexpectedCharacter c rest _ =>
      by_cases hc : c.utf8Size = 1
      · have hmarks := Span.marks_of_append [c] rest hsource
        rw [byteLength_cons, hc] at hmarks
        exact .inl hmarks
      · have hpos := c.utf8Size_pos
        exact .inr ⟨c, before, rest, by omega, hsource, rfl⟩
  | @unterminatedString c rest hquote _ =>
      have hmarks := Span.marks_of_append [c] rest hsource
      rw [byteLength_cons, Lexeme.utf8Size_of_isQuote hquote] at hmarks
      exact .inl hmarks
  | @unterminatedComment rest _ =>
      exact .inl (Span.marks_of_append ['/', '*'] rest hsource)

/-- What the parser reads of a source: tokens that are not empty, and the token at the end. -/
theorem scan_read {source : String} {tokens : List Token} (h : scan source = .ok tokens) :
    (∀ t ∈ tokens.takeWhile Cursor.isInner, 0 < t.span.len) ∧
      Cursor.finishOf tokens = endToken source.toList := by
  obtain ⟨inner, rfl, hinner⟩ := scan_inner h
  have hstart := Cursor.ofTokens_append (fun t ht => (hinner t ht).1)
    (congrArg Token.kind (endToken_eq source)) .full
  refine ⟨?_, congrArg Cursor.finish hstart⟩
  have htake : (inner ++ [endToken source.toList]).takeWhile Cursor.isInner = inner :=
    congrArg Cursor.ahead hstart
  rw [htake]
  rw [scan_eq] at h
  split at h
  · rename_i herrors
    have hsegments := segments_scanFrom herrors
    obtain rfl : (scanned source.toList).tokens = inner :=
      List.append_cancel_right (Except.ok.inj h)
    exact fun t ht => (placed_mem (Lexeme.shebang_append source.toList).symm hsegments ht).1
  · cases h

/-- An error at a token that is not empty has the place of the token. -/
theorem SyntaxError.span_of_pos {e : SyntaxError} (h : 0 < e.token.span.len) :
    e.span = e.token.span := by
  rw [span, Nat.max_eq_left h]

namespace Program

variable {source : String} {tokens : List Token} {supply : Supply}

/-- **The places of syntax errors**: that of a token, or one byte at the end of the source. -/
theorem syntaxErrors_placed {errors : List SyntaxError} (hscan : scan source = .ok tokens)
    (hparse : (parse tokens supply).1 = .error errors) {e : SyntaxError} (he : e ∈ errors) :
    e.span.Marks source ∨ e.token.kind = .endOfSource ∧
      e.span = ⟨source.utf8ByteSize, 1, 1 + source.toList.count '\n'⟩ := by
  rcases List.mem_append.1 ((errors_among hparse).2.2 e he) with hinner | hfinish
  · have hmarks := (scan_inOrder hscan).2 e.token hinner
    rw [SyntaxError.span_of_pos ((scan_read hscan).1 e.token hinner)]
    exact .inl hmarks
  · have hend : e.token = endToken source.toList :=
      (List.mem_singleton.1 hfinish).trans (scan_read hscan).2
    rw [SyntaxError.span, hend, endToken_eq]
    exact .inr ⟨rfl, rfl⟩

/-- **The places of the errors of resolution** are those of nodes, names and keywords. -/
theorem scopeErrors_marked {supply' : Supply} {p : Program} (hscan : scan source = .ok tokens)
    (hparse : parse tokens supply = (.ok p, supply')) {e : ScopeError} (he : e ∈ p.scopeErrors) :
    e.span.Marks source := by
  obtain ⟨ho, htokens⟩ := scan_inOrder hscan
  obtain ⟨d, hd, n, hn, hspan⟩ := scopeErrors_pointed he
  have hfits := (parse_phrase hparse).lies ho d hd hn
  have hdelimited : Delimited (tokens.takeWhile Cursor.isInner) e.span := by
    rcases List.mem_cons.1 hspan with hspan | hlandmark
    · rw [hspan]
      exact hfits.span
    · exact hfits.landmarks _ hlandmark
  exact hdelimited.marks ho htokens

end Program

/-! ### The errors of a compilation -/

/-- **The places of the errors of a compilation.**  An error points at a stretch of the source, on
the line on which that begins, but for two sorts.  A syntax error at the end of the source has one
byte there.  A character that begins nothing and has more than one byte is pointed at by its first
byte alone, and then the place ends inside the character. -/
theorem compile_errors_placed {source : String} {supply : Supply} {errors : List CompileError}
    (h : (compile source supply).1 = .error errors) {e : CompileError} (he : e ∈ errors) :
    (∃ before text rest : String, source = before ++ text ++ rest ∧
      e.span = ⟨before.utf8ByteSize, text.utf8ByteSize, 1 + before.toList.count '\n'⟩) ∨
    (∃ error : SyntaxError, e = .parse error ∧ error.token.kind = .endOfSource ∧
      e.span = ⟨source.utf8ByteSize, 1, 1 + source.toList.count '\n'⟩) ∨
    ∃ (c : Char) (before rest : List Char), 1 < c.utf8Size ∧
      source.toList = before ++ c :: rest ∧
      e = .scan ⟨.unexpectedCharacter c, ⟨byteLength before, 1, 1 + before.count '\n'⟩⟩ ∧
      ¬e.span.Marks source := by
  unfold compile Program.ofSource at h
  cases hscan : scan source with
  | error scanErrors =>
      rw [hscan] at h
      obtain rfl : scanErrors.map .scan = errors := Except.error.inj h
      obtain ⟨error, herror, rfl⟩ := List.mem_map.1 he
      refine (scanErrors_placed hscan herror).imp_right fun ⟨c, before, rest, hc, hsource, hplace⟩ =>
        .inr ⟨c, before, rest, hc, hsource, congrArg _ hplace, ?_⟩
      rw [hplace]
      exact Span.not_marks_of_splits hsource hc
  | ok tokens =>
      rw [hscan] at h
      rcases hparse : Program.parse tokens supply with ⟨_ | p, supply'⟩
      · rename_i syntaxErrors
        simp only [hparse] at h
        obtain rfl : syntaxErrors.map .parse = errors := Except.error.inj h
        obtain ⟨error, herror, rfl⟩ := List.mem_map.1 he
        refine (Program.syntaxErrors_placed hscan (congrArg Prod.fst hparse) herror).imp_right
          fun ⟨hkind, hplace⟩ => .inl ⟨error, rfl, hkind, hplace⟩
      · simp only [hparse, Program.compile] at h
        split at h
        · cases h
        · rename_i scopeErrors hresolve
          obtain rfl : scopeErrors.map .resolve = errors := Except.error.inj h
          obtain ⟨error, herror, rfl⟩ := List.mem_map.1 he
          obtain ⟨hne, hresolve⟩ := (p.resolve_eq_error_iff _).1 hresolve
          exact .inl (Program.scopeErrors_marked hscan hparse (hresolve ▸ herror))

/-- A character of two bytes that begins nothing, in front of one that is whole and of a string that
is not closed: the first is cut, the others are not. -/
theorem compile_errors_placed_cut :
    ∃ errors, (compile "é @\n'é" .full).1 = .error errors ∧
      errors.map CompileError.span = [⟨0, 1, 1⟩, ⟨3, 1, 1⟩, ⟨5, 1, 2⟩] ∧
      (∃ e ∈ errors, ¬e.span.Marks "é @\n'é") ∧
      ∀ e ∈ errors, e.span.Marks "é @\n'é" ∨
        e = .scan ⟨.unexpectedCharacter 'é', ⟨0, 1, 1⟩⟩ := by
  have hscan : scan "é @\n'é" = .error [⟨.unexpectedCharacter 'é', ⟨0, 1, 1⟩⟩,
      ⟨.unexpectedCharacter '@', ⟨3, 1, 1⟩⟩, ⟨.unterminatedString, ⟨5, 1, 2⟩⟩] := by
    decide +kernel
  have hcompile : (compile "é @\n'é" .full).1 = .error [
      .scan ⟨.unexpectedCharacter 'é', ⟨0, 1, 1⟩⟩, .scan ⟨.unexpectedCharacter '@', ⟨3, 1, 1⟩⟩,
      .scan ⟨.unterminatedString, ⟨5, 1, 2⟩⟩] := by
    unfold compile Program.ofSource
    rw [hscan]
    rfl
  refine ⟨_, hcompile, rfl, ⟨_, List.mem_cons_self, ?_⟩, fun e he => ?_⟩
  · have hsplits : "é @\n'é".toList = [] ++ 'é' :: " @\n'é".toList := rfl
    exact Span.not_marks_of_splits hsplits (by decide)
  · rcases compile_errors_placed hcompile he with hmarks | ⟨_, rfl, -⟩ | ⟨c, before, _, hc, -, rfl, -⟩
    · exact .inl hmarks
    · simp at he
    · simp only [List.mem_cons, CompileError.scan.injEq, ScanError.mk.injEq,
        ScanFault.unexpectedCharacter.injEq, reduceCtorEq, false_and, List.not_mem_nil,
        or_false] at he
      rcases he with ⟨rfl, hspan⟩ | ⟨rfl, -⟩
      · rw [hspan]
        exact .inr rfl
      · exact absurd hc (by decide)

end Scriptlet
