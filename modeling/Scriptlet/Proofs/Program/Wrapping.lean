/-
**Numbers in one machine word.**

The counter that numbers expressions is one machine word, and behind its greatest number it is 0
again.  With it a list of tokens is read as with a counter that has no end, but each number is taken
by its remainder.  As long as the counter does not run over, nothing changes.  Where it runs over,
the numbers are still all different, unless more of them are taken than a word has; but they are no
longer those between two values of the counter, and an expression may have a smaller number than its
parts.

Main definitions:

* `Scriptlet.Relocation.wrap` — the relocation that takes every number by its remainder;
* `Scriptlet.Program.takenAll` — how many numbers are taken by readings one after the other.

Main results:

* `Scriptlet.Decl.allIds_relocate` — the numbers in declarations that have moved;
* `Scriptlet.Program.parse_word` — **with the counter of one word the same is read**, but for the
  remainders of the numbers;
* `Scriptlet.Program.parse_word_eq` — **and with the same numbers as long as it does not run over**;
* `Scriptlet.Program.parse_ids_word` — the numbers of programs that are read one after the other;
* `Scriptlet.Program.parse_ids_overflow` — what goes wrong where the counter runs over.
-/

import Mathlib.Data.List.Nodup
import Scriptlet.Proofs.Joined.Renumbering
import Scriptlet.Proofs.Program.Ascent
import Scriptlet.Proofs.Program.Thrift
import Scriptlet.Token.Scan

set_option relaxedAutoImplicit false
set_option autoImplicit false

namespace Scriptlet

/-! ### The numbers in a tree that has moved -/

section Moved

variable (φ : Relocation)

mutual

theorem Expr.ids_relocate : ∀ e : Expr, (e.relocate φ).ids = e.ids.map φ.expr
  | .constant _ _ => rfl
  | .variable _ _ => rfl
  | .thisRef _ => rfl
  | .superRef _ _ => rfl
  | .grouping _ inner => by
      simp only [relocate, ids, List.map_append, inner.ids_relocate]
      rfl
  | .unary _ _ operand => by
      simp only [relocate, ids, List.map_append, operand.ids_relocate]
      rfl
  | .binary _ left _ _ right | .logical _ left _ right => by
      simp only [relocate, ids, List.map_append, left.ids_relocate, right.ids_relocate]
      rfl
  | .ternary _ condition _ thenBranch elseBranch => by
      simp only [relocate, ids, List.map_append, condition.ids_relocate, thenBranch.ids_relocate,
        elseBranch.ids_relocate]
      rfl
  | .assign _ _ value => by
      simp only [relocate, ids, List.map_append, value.ids_relocate]
      rfl
  | .call _ callee arguments _ => by
      simp only [relocate, ids, List.map_append, callee.ids_relocate,
        Expr.allIds_relocate arguments]
      rfl
  | .get _ object _ => by
      simp only [relocate, ids, List.map_append, object.ids_relocate]
      rfl
  | .set _ object _ value => by
      simp only [relocate, ids, List.map_append, object.ids_relocate, value.ids_relocate]
      rfl

theorem Expr.allIds_relocate : ∀ es : List Expr,
    Expr.allIds (Expr.allRelocate φ es) = (Expr.allIds es).map φ.expr
  | [] => rfl
  | e :: es => by
      simp only [allRelocate, allIds, List.map_append, e.ids_relocate, Expr.allIds_relocate es]

end

theorem Superclass.ids_relocate (parent : Option Superclass) :
    Superclass.ids (parent.map (Superclass.relocate φ)) = (Superclass.ids parent).map φ.expr := by
  cases parent <;> rfl

mutual

theorem Routine.ids_relocate : ∀ r : Routine, (r.relocate φ).ids = r.ids.map φ.expr
  | .mk _ _ _ body _ => Decl.allIds_relocate body

theorem Routine.allIds_relocate : ∀ rs : List Routine,
    Routine.allIds (Routine.allRelocate φ rs) = (Routine.allIds rs).map φ.expr
  | [] => rfl
  | r :: rs => by
      simp only [Routine.allRelocate, Routine.allIds, List.map_append, r.ids_relocate,
        Routine.allIds_relocate rs]

theorem Decl.ids_relocate : ∀ d : Decl, (d.relocate φ).ids = d.ids.map φ.expr
  | .classDecl _ _ parent methods _ => by
      simp only [Decl.relocate, Decl.ids, List.map_append, Superclass.ids_relocate φ parent,
        Routine.allIds_relocate methods]
  | .funDecl routine _ => routine.ids_relocate
  | .varDecl _ _ none _ => rfl
  | .varDecl _ _ (some value) _ => value.ids_relocate φ
  | .statement stmt => stmt.ids_relocate

/-- **The numbers in declarations that have moved.** -/
theorem Decl.allIds_relocate : ∀ ds : List Decl,
    Decl.allIds (Decl.allRelocate φ ds) = (Decl.allIds ds).map φ.expr
  | [] => rfl
  | d :: ds => by
      simp only [Decl.allRelocate, Decl.allIds, List.map_append, d.ids_relocate,
        Decl.allIds_relocate ds]

theorem Stmt.ids_relocate : ∀ s : Stmt, (s.relocate φ).ids = s.ids.map φ.expr
  | .expression e _ | .print e _ => e.ids_relocate φ
  | .ret _ none _ => rfl
  | .ret _ (some value) _ => value.ids_relocate φ
  | .block body _ => Decl.allIds_relocate body
  | .ifElse condition thenBranch none _ => by
      simp only [Stmt.relocate, Stmt.ids, List.map_append, condition.ids_relocate φ,
        thenBranch.ids_relocate]
  | .ifElse condition thenBranch (some elseBranch) _ => by
      simp only [Stmt.relocate, Stmt.ids, List.map_append, condition.ids_relocate φ,
        thenBranch.ids_relocate, elseBranch.ids_relocate]
  | .whileLoop condition body _ => by
      simp only [Stmt.relocate, Stmt.ids, List.map_append, condition.ids_relocate φ,
        body.ids_relocate]

end

end Moved

/-! ### Remainders -/

namespace Relocation

/-- The relocation that takes every number by its remainder in a machine word. -/
def wrap : Relocation := ⟨fun place => place, fun n => n % UInt64.size, fun label => label⟩

/-- A counter of one word hands out the remainders of the numbers that follow one another without
end. -/
theorem rigid_wrap : wrap.Rigid (W := .word) :=
  @Rigid.mk .word wrap (fun _ _ => rfl) (fun n => (Nat.mod_add_mod n UInt64.size 1).symm)
    fun _ => rfl

/-- A supply whose counter is a word is left alone. -/
theorem relocate_wrap {s : Supply} (hs : s.expr < UInt64.size) : s.relocate wrap = s := by
  have hexpr : wrap.expr s.expr = s.expr := Nat.mod_eq_of_lt hs
  unfold Supply.relocate
  rw [hexpr]
  rfl

/-- A stretch of numbers that a word has room for has different remainders. -/
theorem wrap_injective {n x y : Nat} (hx : n ≤ x ∧ x < n + UInt64.size)
    (hy : n ≤ y ∧ y < n + UInt64.size) (h : wrap.expr x = wrap.expr y) : x = y := by
  change x % UInt64.size = y % UInt64.size at h
  unfold UInt64.size at hx hy h
  omega

end Relocation

/-! ### Readings -/

namespace Program

variable {ts : List Token} {tss : List (List Token)} {s s' : Supply} {p q : Program}

theorem snd_answerBehind (φ : Relocation) (ds : List Decl)
    (result : Except (List SyntaxError) Program × Supply) :
    (answerBehind φ ds result).2 = result.2.relocate φ := by
  rcases result with ⟨errors | p, s⟩ <;> rfl

/-- A counter without end goes on by the numbers that are taken. -/
theorem expr_parse (ts : List Token) (s : Supply) :
    (parse ts s).2.expr = s.expr + taken ts := by
  have h := parse_renumbered (Relocation.rigid_past s) rfl ts .full
  rw [Relocation.full_relocate_past] at h
  rw [h, snd_answerBehind]
  exact Nat.add_comm _ _

/-- **With the counter of one word the same is read**, but for the remainders of the numbers. -/
theorem parse_word (ts : List Token) (s : Supply) :
    parse (W := .word) ts (s.relocate .wrap) = answerBehind .wrap [] (parse ts s) :=
  @parse_renumbered .wrap .word Relocation.rigid_wrap rfl ts s

/-- The counter of one word goes on by the numbers that are taken, as far as the word goes. -/
theorem expr_parse_word (ts : List Token) (s : Supply) :
    (parse (W := .word) ts (s.relocate .wrap)).2.expr = (s.expr + taken ts) % UInt64.size := by
  rw [parse_word, snd_answerBehind, ← expr_parse]
  rfl

/-- A program that is read with the counter of one word is one that is read without end, and has the
remainders of its numbers. -/
theorem parse_word_ok (h : parse (W := .word) ts (s.relocate .wrap) = (.ok q, s')) :
    ∃ p, parse ts s = (.ok p, (parse ts s).2) ∧
      q.declarations = Decl.allRelocate .wrap p.declarations := by
  rw [parse_word] at h
  rcases hp : parse ts s with ⟨errors | p, s₁⟩
  · rw [hp] at h
    cases h
  · rw [hp] at h
    cases h
    exact ⟨p, rfl, rfl⟩

theorem ids_of_parse_word (h : parse (W := .word) ts (s.relocate .wrap) = (.ok q, s')) :
    ∃ p, parse ts s = (.ok p, (parse ts s).2) ∧ q.ids = p.ids.map Relocation.wrap.expr := by
  obtain ⟨p, hp, hq⟩ := parse_word_ok h
  refine ⟨p, hp, ?_⟩
  unfold ids
  rw [hq, Decl.allIds_relocate]

/-- The numbers in a program are all different, unless more are taken than a word has. -/
theorem nodup_of_parse_word (h : parse (W := .word) ts (s.relocate .wrap) = (.ok q, s'))
    (hroom : taken ts ≤ UInt64.size) : q.ids.Nodup := by
  obtain ⟨p, hp, hids⟩ := ids_of_parse_word h
  obtain ⟨hnodup, hbounds, -⟩ := ids_of_parse hp
  -- without end, they are in a stretch that a word has room for
  have hexpr := expr_parse ts s
  have hle : (parse ts s).2.expr ≤ s.expr + UInt64.size :=
    hexpr ▸ Nat.add_le_add_left hroom s.expr
  have hstretch (x : ExprId) (hx : x ∈ p.ids) : s.expr ≤ x ∧ x < s.expr + UInt64.size :=
    ⟨(hbounds x hx).1, Nat.lt_of_lt_of_le (hbounds x hx).2 hle⟩
  rw [hids]
  refine List.Nodup.map_on ?_ hnodup
  intro x hx y hy hxy
  exact Relocation.wrap_injective (hstretch x hx) (hstretch y hy) hxy

/-- As long as the counter of one word does not run over, the same program is read, with the same
numbers. -/
theorem fst_parse_word (hs : s.expr < UInt64.size) (hfits : s.expr + taken ts ≤ UInt64.size) :
    (parse (W := .word) ts s).1 = (parse ts s).1 := by
  have hword := parse_word ts s
  rw [Relocation.relocate_wrap hs] at hword
  rw [hword]
  have hexpr := expr_parse ts s
  rcases hp : parse ts s with ⟨errors | p, s₁⟩
  · exact congrArg Except.error (List.map_id errors)
  · rw [hp] at hexpr
    have hkept : ∀ i ∈ p.ids, Relocation.wrap.expr i = Relocation.id.expr i := fun i hi =>
      Nat.mod_eq_of_lt (Nat.lt_of_lt_of_le ((ids_of_parse hp).2.1 i hi).2 (hexpr ▸ hfits))
    have hspan : Relocation.wrap.span = Relocation.id.span := rfl
    have hsame := Decl.allRelocate_congr hspan p.declarations hkept fun _ _ => rfl
    rw [Decl.allRelocate_id] at hsame
    change Except.ok (Program.mk (Decl.allRelocate .wrap p.declarations)) = Except.ok p
    rw [hsame]

/-- **As long as the counter of one word does not run over, it is a counter without end.** -/
theorem parse_word_eq (h : s.expr + taken ts < UInt64.size) :
    parse (W := .word) ts s = parse ts s := by
  have hs : s.expr < UInt64.size := Nat.lt_of_le_of_lt (Nat.le_add_right _ _) h
  have hword := parse_word ts s
  rw [Relocation.relocate_wrap hs] at hword
  refine Prod.ext (fst_parse_word hs (Nat.le_of_lt h)) ?_
  rw [hword, snd_answerBehind, Relocation.relocate_wrap]
  rwa [expr_parse]

/-! ### Readings one after the other -/

/-- **Lists of tokens, read one after the other** with the same counter. -/
def parseAll [W : Counter] : List (List Token) → Supply → List (Except (List SyntaxError) Program)
  | [], _ => []
  | ts :: tss, s => (parse ts s).1 :: parseAll tss (parse ts s).2

/-- How many numbers are taken by readings one after the other. -/
def takenAll : List (List Token) → Nat
  | [] => 0
  | ts :: tss => taken ts + takenAll tss

/-- The numbers of programs that are read with a counter without end are those taken meanwhile. -/
theorem bounds_of_mem_parseAll (h : .ok p ∈ parseAll tss s) :
    ∀ i ∈ p.ids, s.expr ≤ i ∧ i < s.expr + takenAll tss := by
  induction tss generalizing s with
  | nil => cases h
  | cons ts tss ih =>
      intro i hi
      have hexpr := expr_parse ts s
      rw [takenAll, ← Nat.add_assoc, ← hexpr]
      rcases List.mem_cons.1 h with hp | hp
      · have hbounds := (ids_of_parse (Prod.ext hp.symm rfl)).2.1 i hi
        exact ⟨hbounds.1, Nat.lt_of_lt_of_le hbounds.2 (Nat.le_add_right _ _)⟩
      · have hbounds := ih hp i hi
        exact ⟨Nat.le_trans (supply_parse ts s).expr hbounds.1, hbounds.2⟩

/-- The programs that are read with the counter of one word have the remainders of the numbers of
those that are read without end. -/
theorem mem_parseAll_word (h : .ok q ∈ parseAll (W := .word) tss (s.relocate .wrap)) :
    ∃ p, .ok p ∈ parseAll tss s ∧ q.ids = p.ids.map Relocation.wrap.expr := by
  induction tss generalizing s with
  | nil => cases h
  | cons ts tss ih =>
      rcases List.mem_cons.1 h with hq | hq
      · obtain ⟨p, hp, hids⟩ := ids_of_parse_word (Prod.ext hq.symm rfl)
        exact ⟨p, List.mem_cons.2 (.inl (congrArg Prod.fst hp).symm), hids⟩
      · rw [parse_word, snd_answerBehind] at hq
        obtain ⟨p, hp, hids⟩ := ih hq
        exact ⟨p, List.mem_cons_of_mem _ hp, hids⟩

/-- No two programs that are read one after the other share a number, unless more numbers are taken
than a word has. -/
theorem pairwise_parseAll_word (h : takenAll tss ≤ UInt64.size) (s : Supply) :
    (parseAll (W := .word) tss (s.relocate .wrap)).Pairwise fun r r' =>
      ∀ p p', r = .ok p → r' = .ok p' → ∀ i ∈ p.ids, i ∉ p'.ids := by
  induction tss generalizing s with
  | nil => exact .nil
  | cons ts tss ih =>
      rw [takenAll] at h
      refine .cons ?_ ?_
      · rintro r' hr' p p' hp rfl i hi hi'
        obtain ⟨q, hq, hids⟩ := ids_of_parse_word (Prod.ext hp rfl)
        rw [parse_word, snd_answerBehind] at hr'
        obtain ⟨q', hq', hids'⟩ := mem_parseAll_word hr'
        rw [hids] at hi
        rw [hids'] at hi'
        obtain ⟨x, hx, rfl⟩ := List.mem_map.1 hi
        obtain ⟨y, hy, hyx⟩ := List.mem_map.1 hi'
        -- without end, the second program begins where the first has ended
        have hexpr := expr_parse ts s
        have hfirst := (ids_of_parse hq).2.1 x hx
        have hsecond := bounds_of_mem_parseAll hq' y hy
        have hle := (supply_parse ts s).expr
        have hroom : (parse ts s).2.expr + takenAll tss ≤ s.expr + UInt64.size := by
          rw [hexpr, Nat.add_assoc]
          exact Nat.add_le_add_left h _
        have heq : y = x := Relocation.wrap_injective
          ⟨Nat.le_trans hle hsecond.1, Nat.lt_of_lt_of_le hsecond.2 hroom⟩
          ⟨hfirst.1, Nat.lt_of_lt_of_le hfirst.2 (Nat.le_trans (Nat.le_add_right _ _) hroom)⟩ hyx
        exact absurd (heq ▸ hsecond.1) (Nat.not_le_of_lt hfirst.2)
      · rw [parse_word, snd_answerBehind]
        exact ih (Nat.le_trans (Nat.le_add_left _ _) h) _

/-- **The numbers of programs that are read one after the other** with the counter of one machine
word, from any of its values on.  A reading takes at most as many numbers as there are tokens, and
the counter goes on by these.  The numbers in a program are all different, unless more are taken
than a word has, and under this condition no two programs share one, whether the readings between
them succeed or not.  As long as the counter does not run over, a node has a larger number than all
that are in what it is made of, the numbers are those between the two values of the counter, and no
reading takes it back. -/
theorem parse_ids_word :
    (∀ ts s p s', s.expr < UInt64.size → parse (W := .word) ts s = (.ok p, s') →
      (∀ n, p.Contains n → ∀ i, n.id? = some i → i ∈ p.ids) ∧
      (taken ts ≤ UInt64.size → p.ids.Nodup) ∧
      (s.expr + taken ts ≤ UInt64.size → ∀ n, p.Contains n → ∀ i, n.id? = some i →
        ∀ c ∈ n.children, ∀ j ∈ c.ids, j < i) ∧
      (s.expr + taken ts < UInt64.size → ∀ i ∈ p.ids, s.expr ≤ i ∧ i < s'.expr)) ∧
    (∀ ts s, s.expr < UInt64.size →
      taken ts ≤ ts.length ∧
      (parse (W := .word) ts s).2.expr = (s.expr + taken ts) % UInt64.size ∧
      (s.expr + taken ts < UInt64.size → s.expr ≤ (parse (W := .word) ts s).2.expr)) ∧
    ∀ tss s, s.expr < UInt64.size → takenAll tss ≤ UInt64.size →
      (parseAll (W := .word) tss s).Pairwise fun r r' =>
        ∀ p p', r = .ok p → r' = .ok p' → ∀ i ∈ p.ids, i ∉ p'.ids := by
  refine ⟨fun ts s p s' hs h => ⟨fun n hn i hi => hn.id_mem hi, fun hroom => ?_, fun hfits => ?_,
    fun hfits => ?_⟩, fun ts s hs => ⟨?_, ?_, fun hfits => ?_⟩, fun tss s hs hroom => ?_⟩
  · rw [← Relocation.relocate_wrap hs] at h
    exact nodup_of_parse_word h hroom
  · have hfst := fst_parse_word hs hfits
    rw [h] at hfst
    have hparse : parse ts s = (.ok p, (parse ts s).2) := Prod.ext hfst.symm rfl
    exact (ids_of_parse hparse).2.2
  · rw [parse_word_eq hfits] at h
    exact (ids_of_parse h).2.1
  · exact Nat.le_trans (taken_le ts) (List.takeWhile_sublist _).length_le
  · have hexpr := expr_parse_word ts s
    rwa [Relocation.relocate_wrap hs] at hexpr
  · rw [parse_word_eq hfits]
    exact (supply_parse ts s).expr
  · have hpairwise := pairwise_parseAll_word hroom s
    rwa [Relocation.relocate_wrap hs] at hpairwise

/-- The tokens of `a + b;`. -/
def sumTokens : List Token :=
  [⟨.identifier, "a", none, ⟨0, 1, 1⟩⟩, ⟨.plus, "+", none, ⟨2, 1, 1⟩⟩,
    ⟨.identifier, "b", none, ⟨4, 1, 1⟩⟩, ⟨.semicolon, ";", none, ⟨5, 1, 1⟩⟩]

/-- The expression `a + b` if `a` takes the greatest number of a word. -/
def overrunSum : Expr :=
  .binary ⟨1, ⟨0, 5, 1⟩⟩ (.variable ⟨UInt64.size - 1, ⟨0, 1, 1⟩⟩ "a") .add ⟨2, 1, 1⟩
    (.variable ⟨0, ⟨4, 1, 1⟩⟩ "b")

/-- The program of `a + b;` if `a` takes the greatest number of a word. -/
def overrun : Program := ⟨[.statement (.expression overrunSum ⟨0, 5, 1⟩)]⟩

/-- The assignment in a `for` loop has lost the number of the property on its left, and the
condition that is left out has a number of its own.  From the greatest number on, the counter runs
over in a sum; behind it a reading fails, and no number is taken again. -/
theorem parse_ids_word_loop :
    (∃ ts p s', scan "for (a.b = c; ;) x;" = .ok ts ∧
      parse (W := .word) ts ⟨5, 0⟩ = (.ok p, s') ∧ taken ts = 6 ∧ p.ids = [7, 5, 8, 9, 10] ∧
      s'.expr = 11 ∧ (∀ i ∈ p.ids, 5 ≤ i ∧ i < 11) ∧
      ∀ e, p.Contains (.expr e) → e.mark.id = 8 →
        ∀ c ∈ (Node.expr e).children, ∀ j ∈ c.ids, j < 8) ∧
    (parse (W := .word) sumTokens ⟨UInt64.size - 1, 0⟩ = (.ok overrun, ⟨2, 0⟩) ∧
      taken sumTokens = 3 ∧ overrun.ids.Nodup) ∧
    ((parse (W := .word) (sumTokens.take 2) ⟨2, 0⟩).2.expr = 3 ∧ taken (sumTokens.take 2) = 1 ∧
      2 ≤ (parse (W := .word) (sumTokens.take 2) ⟨2, 0⟩).2.expr) ∧
    takenAll [sumTokens, sumTokens.take 2, sumTokens] = 7 ∧
      (parseAll (W := .word) [sumTokens, sumTokens.take 2, sumTokens]
          ⟨UInt64.size - 1, 0⟩).Pairwise fun r r' =>
        ∀ p p', r = .ok p → r' = .ok p' → ∀ i ∈ p.ids, i ∉ p'.ids := by
  refine ⟨?_, ⟨rfl, rfl, ?_⟩, ⟨rfl, rfl, ?_⟩, rfl, ?_⟩
  · have hread :
        ((scan "for (a.b = c; ;) x;").toOption.bind fun ts =>
          (parse (W := .word) ts ⟨5, 0⟩).1.toOption.map fun p =>
            (taken ts, p.ids, (parse (W := .word) ts ⟨5, 0⟩).2.expr)) =
        some (6, [7, 5, 8, 9, 10], 11) := by
      decide +kernel
    cases hscan : scan "for (a.b = c; ;) x;" with
    | error errors =>
        rw [hscan] at hread
        cases hread
    | ok ts =>
        rw [hscan, Except.toOption, Option.bind_some] at hread
        rcases hparse : parse (W := .word) ts ⟨5, 0⟩ with ⟨result, s'⟩
        rw [hparse] at hread
        cases result with
        | error errors => cases hread
        | ok p =>
            obtain ⟨htaken, hrest⟩ := Prod.mk.inj (Option.some.inj hread)
            obtain ⟨hids, hexpr⟩ := Prod.mk.inj hrest
            have hfits : 5 + taken ts < UInt64.size := by
              rw [htaken]
              decide
            obtain ⟨-, -, hascends, hbounds⟩ :=
              parse_ids_word.1 ts ⟨5, 0⟩ p s' (by decide) hparse
            refine ⟨ts, p, s', rfl, hparse, htaken, hids, hexpr, hexpr ▸ hbounds hfits, ?_⟩
            exact fun e he hid => hascends (Nat.le_of_lt hfits) _ he 8 (congrArg some hid)
  · exact (parse_ids_word.1 sumTokens ⟨UInt64.size - 1, 0⟩ overrun ⟨2, 0⟩ (by decide) rfl).2.1
      (by decide)
  · exact (parse_ids_word.2.1 (sumTokens.take 2) ⟨2, 0⟩ (by decide)).2.2 (by decide)
  · exact parse_ids_word.2.2 _ ⟨UInt64.size - 1, 0⟩ (by decide) (by decide)

/-- **Where the counter runs over in a sum**, the numbers are not those between the two values of
the counter, the counter is behind where it was, and the sum has a smaller number than its left
operand. -/
theorem parse_ids_overflow :
    parse (W := .word) sumTokens ⟨UInt64.size - 1, 0⟩ = (.ok overrun, ⟨2, 0⟩) ∧
      overrun.ids = [UInt64.size - 1, 0, 1] ∧
      ¬(∀ i ∈ overrun.ids, UInt64.size - 1 ≤ i ∧ i < 2) ∧ ¬UInt64.size - 1 ≤ 2 ∧
      ∃ n, overrun.Contains n ∧ n.id? = some 1 ∧ ∃ c ∈ n.children, ∃ j ∈ c.ids, ¬j < 1 := by
  refine ⟨rfl, rfl, by decide, by decide, .expr overrunSum, ?_, rfl, ?_⟩
  · have hstmt : Node.stmt (.expression overrunSum ⟨0, 5, 1⟩) ∈
        (Node.decl (.statement (.expression overrunSum ⟨0, 5, 1⟩))).children :=
      List.mem_singleton.2 rfl
    have hexpr : Node.expr overrunSum ∈
        (Node.stmt (.expression overrunSum ⟨0, 5, 1⟩)).children := List.mem_singleton.2 rfl
    exact ⟨_, List.mem_singleton.2 rfl, .head hstmt (.head hexpr .refl)⟩
  · exact ⟨_, List.mem_cons_self, UInt64.size - 1, List.mem_singleton.2 rfl, by decide⟩

end Program

end Scriptlet
