/-
**Where the nodes of a program stand.**

Tokens stand in the source one behind the other.  The place of a node begins where one of them
begins and ends where that one or a later one ends: an expression covers just the tokens it was
read from, other nodes a stretch of theirs.  So the place of a node holds those of its children and
all the places at which it points, also in the block that a `for` loop stands for, whose nodes share
one place.

Main definitions:

* `Scriptlet.Span.Inside` — a place that is part of another one;
* `Scriptlet.Covers`, `Scriptlet.Delimited` — a place that begins and ends with given tokens, and
  one that does with some of them;
* `Scriptlet.Node.Fits` — **a node whose places are delimited by tokens, and that holds what it is
  made of**;
* `Scriptlet.Span.Marks` — a place that is a stretch of a source.

Main results:

* `Scriptlet.Delimited.inside` — a place among tokens is inside the place that they cover;
* `Scriptlet.Phrase.Expression.placed` — **an expression covers its tokens**;
* `Scriptlet.Phrase.Declarations.lies` — all nodes of a phrase fit its tokens;
* `Scriptlet.Delimited.marks` — a place among tokens of a source is a stretch of it;
* `Scriptlet.Program.spans_nested` — **the places of a program that was read from a source**.
-/

import Scriptlet.Proofs.Joined.Scan
import Scriptlet.Proofs.Program.Nodes
import Scriptlet.Proofs.Program.Soundness

set_option relaxedAutoImplicit false
set_option autoImplicit false

namespace Scriptlet

/-! ### Places and tokens -/

/-- A place that is part of another one. -/
structure Span.Inside (a b : Span) : Prop where
  offset : b.offset ≤ a.offset
  stop : a.stop ≤ b.stop

theorem Span.offset_le_stop (s : Span) : s.offset ≤ s.stop := Nat.le_add_right _ _

/-- Tokens that stand one behind the other. -/
def InOrder (ts : List Token) : Prop := ts.Pairwise fun t u => t.span.stop ≤ u.span.offset

namespace InOrder

variable {ts us : List Token} {t u : Token}

theorem left (h : InOrder (ts ++ us)) : InOrder ts := (List.pairwise_append.1 h).1

theorem right (h : InOrder (ts ++ us)) : InOrder us := (List.pairwise_append.1 h).2.1

theorem tail (h : InOrder (t :: ts)) : InOrder ts := (List.pairwise_cons.1 h).2

theorem sublist (h : InOrder ts) (hus : us.Sublist ts) : InOrder us := List.Pairwise.sublist hus h

/-- The first token begins before all others. -/
theorem first_le (h : InOrder ts) (ht : t ∈ ts.head?) (hu : u ∈ ts) :
    t.span.offset ≤ u.span.offset := by
  obtain ⟨rest, rfl⟩ := List.head?_eq_some_iff.1 ht
  rcases List.mem_cons.1 hu with rfl | hu
  · exact Nat.le_refl _
  · exact Nat.le_trans t.span.offset_le_stop ((List.pairwise_cons.1 h).1 u hu)

/-- The last token ends behind all others. -/
theorem le_last (h : InOrder ts) (ht : t ∈ ts.getLast?) (hu : u ∈ ts) :
    u.span.stop ≤ t.span.stop := by
  obtain ⟨front, rfl⟩ := List.getLast?_eq_some_iff.1 ht
  rcases List.mem_append.1 hu with hu | hu
  · exact Nat.le_trans ((List.pairwise_append.1 h).2.2 u hu t (List.mem_singleton.2 rfl))
      t.span.offset_le_stop
  · rw [List.mem_singleton.1 hu]

end InOrder

/-- A place that begins with the first of the tokens. -/
def BeginsWith (ts : List Token) (s : Span) : Prop :=
  ∃ t ∈ ts.head?, s.offset = t.span.offset ∧ s.line = t.span.line

/-- A place that ends with the last of the tokens. -/
def EndsWith (ts : List Token) (s : Span) : Prop := ∃ t ∈ ts.getLast?, s.stop = t.span.stop

/-- **A place that begins with the first of the tokens and ends with the last one.** -/
structure Covers (ts : List Token) (s : Span) : Prop where
  begins : BeginsWith ts s
  ends : EndsWith ts s

/-- A place that begins with one of the tokens and ends with that one or a later one. -/
def Delimited (ts : List Token) (s : Span) : Prop := ∃ us, us <:+: ts ∧ Covers us s

section Tokens

variable {ts us : List Token} {t : Token} {a b : Span}

theorem BeginsWith.cons : BeginsWith (t :: ts) t.span := ⟨t, rfl, rfl, rfl⟩

theorem BeginsWith.append (h : BeginsWith ts a) : BeginsWith (ts ++ us) a := by
  obtain ⟨t, ht, hspan⟩ := h
  exact ⟨t, List.mem_head?_append_of_mem_head? ht, hspan⟩

theorem EndsWith.single : EndsWith [t] t.span := ⟨t, rfl, rfl⟩

theorem EndsWith.append (h : EndsWith us a) : EndsWith (ts ++ us) a := by
  obtain ⟨t, ht, hstop⟩ := h
  exact ⟨t, List.mem_getLast?_append_of_mem_getLast? ht, hstop⟩

theorem EndsWith.cons (h : EndsWith ts a) : EndsWith (t :: ts) a :=
  show EndsWith ([t] ++ ts) a from h.append

theorem EndsWith.getLastD (t : Token) (ts : List Token) : EndsWith (t :: ts) (ts.getLastD t).span :=
  ⟨ts.getLastD t, by rw [List.getLast?_cons, List.getLastD_eq_getLast?]; rfl, rfl⟩

theorem Covers.single (t : Token) : Covers [t] t.span := ⟨.cons, .single⟩

/-- The stretch from one place to another covers all tokens if the one begins with the first token
and the other ends with the last one. -/
theorem Covers.through (ha : BeginsWith ts a) (hb : EndsWith ts b) (h : InOrder ts) :
    Covers ts (a.through b) := by
  obtain ⟨t, ht, hoffset, hline⟩ := ha
  obtain ⟨u, hu, hstop⟩ := hb
  have hle : a.offset ≤ b.stop := by
    have hfirst := h.first_le ht (List.mem_of_getLast? hu)
    have hlast := u.span.offset_le_stop
    omega
  refine ⟨⟨t, ht, hoffset, hline⟩, ⟨u, hu, ?_⟩⟩
  rw [Span.through_stop, Nat.max_eq_left hle, hstop]

theorem Delimited.mono (h : Delimited ts a) (hi : ts <:+: us) : Delimited us a := by
  obtain ⟨vs, hvs, hcovers⟩ := h
  exact ⟨vs, hvs.trans hi, hcovers⟩

theorem Covers.delimited (h : Covers ts a) : Delimited ts a := ⟨ts, List.infix_rfl, h⟩

theorem Delimited.of_mem (h : t ∈ ts) : Delimited ts t.span := by
  obtain ⟨front, back, rfl⟩ := List.append_of_mem h
  exact ⟨[t], ⟨front, back, by simp⟩, .single t⟩

/-- **A place among tokens is inside the place that they cover.** -/
theorem Delimited.inside (ha : Delimited ts a) (hb : Covers ts b) (h : InOrder ts) :
    a.Inside b := by
  obtain ⟨vs, hvs, hcovers⟩ := ha
  obtain ⟨t, ht, htoffset, -⟩ := hb.begins
  obtain ⟨u, hu, hustop⟩ := hb.ends
  obtain ⟨v, hv, hvoffset, -⟩ := hcovers.begins
  obtain ⟨w, hw, hwstop⟩ := hcovers.ends
  refine ⟨?_, ?_⟩
  · rw [htoffset, hvoffset]
    exact h.first_le ht (hvs.subset (List.mem_of_mem_head? hv))
  · rw [hustop, hwstop]
    exact h.le_last hu (hvs.subset (List.mem_of_getLast? hw))

end Tokens

/-! ### Nodes among tokens -/

/-- **A node whose places are delimited by tokens, and that holds its children and the places at
which it points.** -/
structure Node.Fits (ts : List Token) (n : Node) : Prop where
  span : Delimited ts n.span
  landmarks : ∀ s ∈ n.landmarks, Delimited ts s
  holds : ∀ c ∈ n.children, c.span.Inside n.span
  pointsInside : ∀ s ∈ n.landmarks, s.Inside n.span

/-- A node that fits tokens, as everything below it does. -/
def Node.Lies (ts : List Token) (n : Node) : Prop := n.All (Node.Fits ts)

namespace Node.Lies

variable {ts us : List Token} {t : Token} {n : Node}

theorem mono (h : n.Lies ts) (hi : ts <:+: us) : n.Lies us := fun _ hm =>
  { span := (h hm).span.mono hi
    landmarks := fun s hs => ((h hm).landmarks s hs).mono hi
    holds := (h hm).holds
    pointsInside := (h hm).pointsInside }

theorem left (h : n.Lies ts) : n.Lies (ts ++ us) := h.mono (List.prefix_append _ _).isInfix

theorem right (h : n.Lies us) : n.Lies (ts ++ us) := h.mono (List.suffix_append _ _).isInfix

theorem cons (h : n.Lies ts) : n.Lies (t :: ts) := h.mono (List.suffix_cons _ _).isInfix

/-- **A node that covers tokens holds all that lies among them.** -/
theorem node (hspan : Covers ts n.span) (h : InOrder ts)
    (hlandmarks : ∀ s ∈ n.landmarks, Delimited ts s) (hchildren : ∀ c ∈ n.children, c.Lies ts) :
    n.Lies ts :=
  all_iff.2 ⟨
    { span := hspan.delimited
      landmarks := hlandmarks
      holds := fun c hc => (hchildren c hc .refl).span.inside hspan h
      pointsInside := fun s hs => (hlandmarks s hs).inside hspan h }, hchildren⟩

/-- A node that is a single token. -/
theorem leaf (ht : t ∈ ts) (hspan : n.span = t.span) (hlandmarks : n.landmarks = [])
    (hchildren : n.children = []) : n.Lies ts := by
  obtain ⟨front, back, rfl⟩ := List.append_of_mem ht
  have hsingle : n.Lies [t] := by
    refine node (hspan ▸ .single t) (List.pairwise_singleton _ _) ?_ ?_
    · rw [hlandmarks]
      exact nofun
    · rw [hchildren]
      exact nofun
  exact hsingle.mono ⟨front, back, by simp⟩

end Node.Lies

/-- A node that has the place of its only child. -/
theorem Node.Lies.around {ts : List Token} {n c : Node} (h : c.Lies ts) (hspan : n.span = c.span)
    (hlandmarks : n.landmarks = []) (hchildren : n.children = [c]) : n.Lies ts :=
  all_iff.2 ⟨
    { span := hspan ▸ (h .refl).span
      landmarks := by
        rw [hlandmarks]
        exact nofun
      holds := by
        rw [hchildren, hspan]
        exact List.forall_mem_singleton.2 ⟨Nat.le_refl _, Nat.le_refl _⟩
      pointsInside := by
        rw [hlandmarks]
        exact nofun }, by
    rw [hchildren]
    exact List.forall_mem_singleton.2 h⟩

/-- An expression that covers the tokens among which it lies. -/
structure Expr.Placed (ts : List Token) (e : Expr) : Prop where
  covers : Covers ts e.span
  lies : (Node.expr e).Lies ts

namespace Expr.Placed

variable {ts : List Token} {t : Token} {e : Expr}

theorem node (hspan : Covers ts e.span) (h : InOrder ts)
    (hlandmarks : ∀ s ∈ (Node.expr e).landmarks, Delimited ts s)
    (hchildren : ∀ c ∈ e.children, (Node.expr c).Lies ts) : e.Placed ts :=
  ⟨hspan, .node hspan h hlandmarks (List.forall_mem_map.2 hchildren)⟩

theorem leaf (hspan : e.span = t.span) (hlandmarks : (Node.expr e).landmarks = [])
    (hchildren : e.children = []) : e.Placed [t] :=
  ⟨hspan ▸ .single t, .leaf (List.mem_singleton.2 rfl) hspan hlandmarks
    (by rw [Node.children, hchildren]; rfl)⟩

end Expr.Placed

/-! ### The places of phrases -/

/-- The operator between two operands lies between them. -/
theorem join_placed {join : Join} {mark : Mark} {left right : Expr} {operator : Token}
    {ts us : List Token} (hleft : left.Placed ts) (hright : right.Placed us)
    (hmark : mark.span = left.span.through right.span) (h : InOrder (ts ++ operator :: us)) :
    (join.expr mark left operator.span right).Placed (ts ++ operator :: us) := by
  have hspan : Covers (ts ++ operator :: us) mark.span :=
    hmark ▸ .through hleft.covers.begins.append hright.covers.ends.cons.append h
  have hoperator : Delimited (ts ++ operator :: us) operator.span := .of_mem (by simp)
  have hchildren : ∀ c ∈ [left, right], (Node.expr c).Lies (ts ++ operator :: us) :=
    List.forall_mem_cons.2 ⟨hleft.lies.left, List.forall_mem_singleton.2 hright.lies.cons.right⟩
  cases join with
  | logical op => exact .node hspan h nofun hchildren
  | binary op => exact .node hspan h (List.forall_mem_singleton.2 hoperator) hchildren

namespace Phrase

open List (forall_mem_append forall_mem_cons forall_mem_map forall_mem_singleton)

mutual

/-- **An expression covers its tokens.** -/
theorem Expression.placed {ts : List Token} {s s' : Supply} {e : Expr} :
    Expression ts s e s' → InOrder ts → e.Placed ts
  | .plain h, ho => h.placed ho
  | .choice h _ hx _ hy, ho => by
      have he := h.placed ho.left
      have hx := hx.placed ho.right.tail.left
      have hy := hy.placed ho.right.tail.right.tail
      refine .node (.through he.covers.begins.append hy.covers.ends.cons.append.cons.append ho) ho
        (forall_mem_singleton.2 (.of_mem (by simp))) ?_
      exact forall_mem_cons.2 ⟨he.lies.left, forall_mem_cons.2 ⟨hx.lies.left.cons.right,
        forall_mem_singleton.2 hy.lies.cons.right.cons.right⟩⟩

theorem Assignment.placed {ts : List Token} {s s' : Supply} {e : Expr} :
    Assignment ts s e s' → InOrder ts → e.Placed ts
  | .plain h, ho => h.placed ho
  | .name h _ hv, ho => by
      have htarget := h.placed ho.left
      have hv := hv.placed ho.right.tail
      exact .node (.through htarget.covers.begins.append hv.covers.ends.cons.append ho) ho nofun
        (forall_mem_singleton.2 hv.lies.cons.right)
  | .property h _ hv, ho => by
      have htarget := h.placed ho.left
      have hv := hv.placed ho.right.tail
      -- the object is a part of the expression on the left
      have hobject := (Node.all_iff.1 htarget.lies).2 _ (List.mem_singleton.2 rfl)
      exact .node (.through htarget.covers.begins.append hv.covers.ends.cons.append ho) ho nofun
        (forall_mem_cons.2 ⟨Node.Lies.left hobject, forall_mem_singleton.2 hv.lies.cons.right⟩)

theorem Operand.placed {level : Option Level} {ts : List Token} {s s' : Supply} {e : Expr} :
    Operand level ts s e s' → InOrder ts → e.Placed ts
  | .level h hj, ho => hj.placed (h.placed ho.left) ho
  | .unary h, ho => h.placed ho

theorem Joins.placed {level : Level} {left : Expr} {us : List Token} {s s' : Supply} {e : Expr} :
    Joins level left us s e s' → ∀ {ts : List Token}, left.Placed ts → InOrder (ts ++ us) →
      e.Placed (ts ++ us)
  | .nil, ts, hl, _ => by
      rw [List.append_nil]
      exact hl
  | @Joins.cons _ _ operator us vs _ _ _ _ right _ _ h hj, ts, hl, ho => by
      have hsplit : ts ++ operator :: (us ++ vs) = (ts ++ operator :: us) ++ vs := by simp
      rw [hsplit] at ho ⊢
      have hright := h.placed ho.left.right.tail
      exact hj.placed (join_placed hl hright rfl ho.left) ho

theorem Unary.placed {ts : List Token} {s s' : Supply} {e : Expr} :
    Unary ts s e s' → InOrder ts → e.Placed ts
  | .operator _ h, ho => by
      have he := h.placed ho.tail
      exact .node (.through .cons he.covers.ends.cons ho) ho nofun
        (forall_mem_singleton.2 he.lies.cons)
  | .call h hs, ho => hs.placed (h.placed ho.left) ho

theorem Suffixes.placed {callee : Expr} {us : List Token} {s s' : Supply} {e : Expr} :
    Suffixes callee us s e s' → ∀ {ts : List Token}, callee.Placed ts → InOrder (ts ++ us) →
      e.Placed (ts ++ us)
  | .nil, ts, hc, _ => by
      rw [List.append_nil]
      exact hc
  | @Suffixes.call opening closing us vs _ _ _ _ _ arguments _ ha _ hs, ts, hc, ho => by
      have hsplit : ts ++ opening :: (us ++ closing :: vs) =
          (ts ++ opening :: (us ++ [closing])) ++ vs := by simp
      rw [hsplit] at ho ⊢
      have hargs := ha.lies ho.left.right.tail.left
      refine hs.placed ?_ ho
      refine .node (.through hc.covers.begins.append (.append (.cons (.append .single))) ho.left)
        ho.left (forall_mem_singleton.2 (.of_mem (by simp))) ?_
      exact forall_mem_cons.2 ⟨hc.lies.left, fun e he => (hargs e he).left.cons.right⟩
  | @Suffixes.property dot name vs _ _ _ _ _ _ hs, ts, hc, ho => by
      have hsplit : ts ++ dot :: name :: vs = (ts ++ [dot, name]) ++ vs := by simp
      rw [hsplit] at ho ⊢
      refine hs.placed ?_ ho
      exact .node (.through hc.covers.begins.append (.append (.cons .single)) ho.left) ho.left nofun
        (forall_mem_singleton.2 hc.lies.left)

theorem ArgumentList.lies {ts : List Token} {s s' : Supply} {es : List Expr} :
    ArgumentList ts s es s' → InOrder ts → ∀ e ∈ es, (Node.expr e).Lies ts
  | .none, _ => nofun
  | .some h _, ho => h.lies ho

theorem Arguments.lies {ts : List Token} {s s' : Supply} {es : List Expr} :
    Arguments ts s es s' → InOrder ts → ∀ e ∈ es, (Node.expr e).Lies ts
  | .last h, ho => forall_mem_singleton.2 (h.placed ho).lies
  | .more h _ hs, ho =>
      forall_mem_cons.2 ⟨(h.placed ho.left).lies.left,
        fun e he => (hs.lies ho.right.tail e he).cons.right⟩

theorem Primary.placed {ts : List Token} {s s' : Supply} {e : Expr} :
    Primary ts s e s' → InOrder ts → e.Placed ts
  | .constant _, _ => .leaf rfl rfl rfl
  | .thisWord _, _ => .leaf rfl rfl rfl
  | .superWord _ _ _, ho => .node (.through .cons (.cons (.cons .single)) ho) ho nofun nofun
  | .name _, _ => .leaf rfl rfl rfl
  | .grouping _ h _, ho => by
      have he := h.placed ho.tail.left
      exact .node (.through .cons (.cons (.append .single)) ho) ho nofun
        (forall_mem_singleton.2 he.lies.left.cons)

end

theorem Parameters.lies {ts : List Token} {ps : List Param} :
    Parameters ts ps → ∀ p ∈ ps, (Node.param p).Lies ts
  | .last _ => forall_mem_singleton.2 (.leaf (List.mem_singleton.2 rfl) rfl rfl rfl)
  | .more _ _ h =>
      forall_mem_cons.2 ⟨.leaf List.mem_cons_self rfl rfl rfl,
        fun p hp => (h.lies p hp).cons.cons⟩

theorem ParameterList.lies {ts : List Token} {ps : List Param} :
    ParameterList ts ps → ∀ p ∈ ps, (Node.param p).Lies ts
  | .none => nofun
  | .some h _ => h.lies

theorem Parent.lies {ts : List Token} {s s' : Supply} {parent : Option Superclass} :
    Parent ts s parent s' → ∀ p ∈ parent.toList, (Node.superclass p).Lies ts
  | .none => nofun
  | .some _ _ => forall_mem_singleton.2 (.leaf (by simp) rfl rfl rfl)

theorem Optional.lies {ts : List Token} {s s' : Supply} {e : Option Expr} :
    Optional ts s e s' → InOrder ts → ∀ x ∈ e.toList, (Node.expr x).Lies ts
  | .none, _ => nofun
  | .some h, ho => forall_mem_singleton.2 (h.placed ho).lies

theorem Initializer.lies {ts : List Token} {s s' : Supply} {e : Option Expr} :
    Initializer ts s e s' → InOrder ts → ∀ x ∈ e.toList, (Node.expr x).Lies ts
  | .none, _ => nofun
  | .some _ h, ho => forall_mem_singleton.2 (h.placed ho.tail).lies.cons

theorem Variable.lies {ts : List Token} {s s' : Supply} {d : Decl} :
    Variable ts s d s' → InOrder ts → (Node.decl d).Lies ts
  | .mk _ _ h _, ho => by
      have h := h.lies ho.tail.tail.left
      refine .node (.through .cons (.cons (.cons (.append .single))) ho) ho
        (forall_mem_singleton.2 (.of_mem (by simp))) (forall_mem_map.2 ?_)
      exact fun e he => (h e he).left.cons.cons

/-- A statement that is a declaration. -/
theorem statement_lies {ts : List Token} {stmt : Stmt} (h : (Node.stmt stmt).Lies ts) :
    (Node.decl (.statement stmt)).Lies ts :=
  .around h rfl rfl rfl

/-- An expression that is a statement has the place of the expression. -/
theorem expression_lies {ts : List Token} {e : Expr} (h : (Node.expr e).Lies ts) :
    (Node.stmt (.expression e e.span)).Lies ts :=
  .around h rfl rfl rfl

theorem LoopInitializer.lies {ts : List Token} {s s' : Supply} {d : Option Decl} :
    LoopInitializer ts s d s' → InOrder ts → ∀ x ∈ d.toList, (Node.decl x).Lies ts
  | .none _, _ => nofun
  | .declaration h, ho => forall_mem_singleton.2 (h.lies ho)
  | .expression h _, ho =>
      forall_mem_singleton.2 (statement_lies (expression_lies (h.placed ho.left).lies)).left

theorem LoopCondition.lies {ts : List Token} {s s' : Supply} {e : Expr} :
    LoopCondition ts s e s' → InOrder ts → (Node.expr e).Lies ts
  | .none _, _ => .leaf (List.mem_singleton.2 rfl) rfl rfl rfl
  | .some h _, ho => (h.placed ho.left).lies.left

/-- The nodes for which a `for` loop stands share the place of the whole loop. -/
theorem forLoop_lies {ts : List Token} {initializer : Option Decl} {condition : Expr}
    {increment : Option Expr} {body : Stmt} {span : Span} (hspan : Covers ts span)
    (h : InOrder ts) (hinitializer : ∀ d ∈ initializer.toList, (Node.decl d).Lies ts)
    (hcondition : (Node.expr condition).Lies ts)
    (hincrement : ∀ e ∈ increment.toList, (Node.expr e).Lies ts)
    (hbody : (Node.stmt body).Lies ts) :
    (Node.stmt (Parser.forLoop initializer condition increment body span)).Lies ts := by
  have hsteps : ∀ c ∈ (increment.toList.map fun e => Decl.statement (.expression e e.span)).map
      Node.decl, c.Lies ts :=
    forall_mem_map.2 (forall_mem_map.2 fun e he =>
      statement_lies (expression_lies (hincrement e he)))
  have hround : (Node.stmt (.block (.statement body ::
      increment.toList.map fun e => Decl.statement (.expression e e.span)) span)).Lies ts :=
    .node hspan h nofun (forall_mem_cons.2 ⟨statement_lies hbody, hsteps⟩)
  have hloop : (Node.decl (.statement (.whileLoop condition (.block (.statement body ::
      increment.toList.map fun e => Decl.statement (.expression e e.span)) span) span))).Lies ts :=
    statement_lies (.node hspan h nofun
      (forall_mem_cons.2 ⟨hcondition, forall_mem_singleton.2 hround⟩))
  exact .node hspan h nofun (forall_mem_map.2 (forall_mem_append.2
    ⟨hinitializer, forall_mem_singleton.2 hloop⟩))

mutual

/-- **Declarations lie among their tokens.** -/
theorem Declarations.lies {ts : List Token} {s s' : Supply} {ds : List Decl} :
    Declarations ts s ds s' → InOrder ts → ∀ d ∈ ds, (Node.decl d).Lies ts
  | .nil, _ => nofun
  | .cons h hs, ho =>
      forall_mem_cons.2 ⟨(h.lies ho.left).left, fun d hd => (hs.lies ho.right d hd).right⟩

theorem Declaration.lies {ts : List Token} {s s' : Supply} {d : Decl} :
    Declaration ts s d s' → InOrder ts → (Node.decl d).Lies ts
  | .classDecl _ _ hp _ hm _, ho => by
      have hm := hm.lies ho.tail.tail.right.tail.left
      refine .node (.through .cons (.cons (.cons (.append (.cons (.append .single))))) ho) ho
        (forall_mem_singleton.2 (.of_mem (by simp))) (forall_mem_append.2 ⟨?_, ?_⟩)
      · exact forall_mem_map.2 fun p h => (hp.lies p h).left.cons.cons
      · exact forall_mem_map.2 fun r hr => (hm r hr).left.cons.right.cons.cons
  | .funDecl _ h, ho =>
      .node (.through .cons (.getLastD _ _) ho) ho nofun
        (forall_mem_singleton.2 (h.lies ho.tail).cons)
  | .varDecl h, ho => h.lies ho
  | .statement h, ho => statement_lies (h.lies ho)

theorem Methods.lies {ts : List Token} {s s' : Supply} {rs : List Routine} :
    Methods ts s rs s' → InOrder ts → ∀ r ∈ rs, (Node.routine r).Lies ts
  | .nil, _ => nofun
  | .cons h hs, ho =>
      forall_mem_cons.2 ⟨(h.lies ho.left).left, fun r hr => (hs.lies ho.right r hr).right⟩

theorem Function.lies {ts : List Token} {s s' : Supply} {r : Routine} :
    Function ts s r s' → InOrder ts → (Node.routine r).Lies ts
  | .mk _ _ hp _ hb, ho => by
      have hb := hb.lies ho.tail.tail.right.tail
      refine .node (.through .cons (.cons (.cons (.append (.getLastD _ _)))) ho) ho nofun
        (forall_mem_append.2 ⟨?_, ?_⟩)
      · exact forall_mem_map.2 fun p h => (hp.lies p h).left.cons.cons
      · exact forall_mem_map.2 fun d hd => (hb d hd).cons.right.cons.cons

theorem Block.lies {ts : List Token} {s s' : Supply} {body : List Decl} :
    Block ts s body s' → InOrder ts → ∀ d ∈ body, (Node.decl d).Lies ts
  | .mk _ h _, ho => fun d hd => (h.lies ho.tail.left d hd).left.cons

theorem Statement.lies {dangling : Bool} {ts : List Token} {s s' : Supply} {stmt : Stmt} :
    Statement dangling ts s stmt s' → InOrder ts → (Node.stmt stmt).Lies ts
  | .expression h _, ho => (expression_lies (h.placed ho.left).lies).left
  | .print _ h _, ho =>
      .node (.through .cons (.cons (.append .single)) ho) ho nofun
        (forall_mem_singleton.2 (h.placed ho.tail.left).lies.left.cons)
  | .ret _ h _, ho =>
      .node (.through .cons (.cons (.append .single)) ho) ho
        (forall_mem_singleton.2 (.of_mem List.mem_cons_self))
        (forall_mem_map.2 fun e he => (h.lies ho.tail.left e he).left.cons)
  | .block h, ho =>
      .node (.through .cons (.getLastD _ _) ho) ho nofun (forall_mem_map.2 (h.lies ho))
  | .ifThen _ _ h _ ht, ho => by
      have he := (h.placed ho.tail.tail.left).lies
      have ht := ht.lies ho.tail.tail.right.tail
      exact .node (.through .cons (.cons (.cons (.append (.getLastD _ _)))) ho) ho nofun
        (forall_mem_cons.2 ⟨he.left.cons.cons, forall_mem_singleton.2 ht.cons.right.cons.cons⟩)
  | .ifElse _ _ h _ ht _ ho', ho => by
      have he := (h.placed ho.tail.tail.left).lies
      have ht := ht.lies ho.tail.tail.right.tail.left
      have ho' := ho'.lies ho.tail.tail.right.tail.right.tail
      refine .node (.through .cons
        (.cons (.cons (.append (.cons (.append (.getLastD _ _)))))) ho) ho nofun ?_
      exact forall_mem_cons.2 ⟨he.left.cons.cons,
        forall_mem_cons.2 ⟨ht.left.cons.right.cons.cons,
          forall_mem_singleton.2 ho'.cons.right.cons.right.cons.cons⟩⟩
  | .whileLoop _ _ h _ hb, ho => by
      have he := (h.placed ho.tail.tail.left).lies
      have hb := hb.lies ho.tail.tail.right.tail
      exact .node (.through .cons (.cons (.cons (.append (.getLastD _ _)))) ho) ho nofun
        (forall_mem_cons.2 ⟨he.left.cons.cons, forall_mem_singleton.2 hb.cons.right.cons.cons⟩)
  | .forLoop _ _ hi hc hs _ hb, ho => by
      have ho' := ho.tail.tail
      have hi := hi.lies ho'.left
      have hc := hc.lies ho'.right.left
      have hs := hs.lies ho'.right.right.left
      have hb := hb.lies ho'.right.right.right.tail
      refine forLoop_lies (.through .cons
        (.cons (.cons (.append (.append (.append (.getLastD _ _)))))) ho) ho ?_ ?_ ?_ ?_
      · exact fun d hd => (hi d hd).left.cons.cons
      · exact hc.left.right.cons.cons
      · exact fun e he => (hs e he).left.right.right.cons.cons
      · exact hb.cons.right.right.right.cons.cons

end

end Phrase

/-! ### Sources -/

/-- Of two prefixes of one text, the one with fewer bytes is a prefix of the other. -/
theorem prefix_of_byteLength_le {a b cs : List Char} (ha : a <+: cs) (hb : b <+: cs)
    (h : byteLength a ≤ byteLength b) : a <+: b := by
  rcases List.prefix_or_prefix_of_prefix ha hb with hab | ⟨more, rfl⟩
  · exact hab
  · cases more with
    | nil => simp
    | cons c more =>
        -- the other one would be longer by a character
        have hpos := c.utf8Size_pos
        simp only [byteLength_append, byteLength_cons] at h
        omega

theorem utf8ByteSize_eq (s : String) : s.utf8ByteSize = byteLength s.toList := by
  rw [← Lexeme.utf8ByteSize_ofList, String.ofList_toList]

/-- A place that is a stretch of a source, on the line on which that begins. -/
def Span.Marks (source : String) (s : Span) : Prop :=
  ∃ before text rest : String, source = before ++ text ++ rest ∧
    s = ⟨before.utf8ByteSize, text.utf8ByteSize, 1 + before.toList.count '\n'⟩

/-- The tokens that are read of a source stand in it, one behind the other. -/
theorem scan_inOrder {source : String} {tokens : List Token} (h : scan source = .ok tokens) :
    InOrder (tokens.takeWhile Cursor.isInner) ∧
      ∀ t ∈ tokens.takeWhile Cursor.isInner, t.span.Marks source := by
  obtain ⟨inner, rfl, hinner⟩ := scan_inner h
  have htake : (inner ++ [endToken source.toList]).takeWhile Cursor.isInner = inner := by
    have hlast : Cursor.isInner (endToken source.toList) = false := by
      rw [endToken_eq]
      rfl
    rw [List.takeWhile_append_of_pos fun t ht => (hinner t ht).1,
      List.takeWhile_cons_of_neg (by simp [hlast]), List.append_nil]
  rw [htake]
  rw [scan_eq] at h
  split at h
  · rename_i herrors
    have hsource := Lexeme.shebang_append source.toList
    have hsegments := segments_scanFrom herrors
    obtain rfl : (scanned source.toList).tokens = inner :=
      List.append_cancel_right (Except.ok.inj h)
    refine ⟨hsegments.pairwise, fun t ht => ?_⟩
    obtain ⟨-, -, -, before, rest, htext, hspan, -⟩ := placed_mem hsource.symm hsegments ht
    exact ⟨before, t.lexeme, rest, htext, hspan⟩
  · cases h

/-- **A place among tokens that stand in a source is a stretch of it.** -/
theorem Delimited.marks {source : String} {ts : List Token} {s : Span} (h : Delimited ts s)
    (ho : InOrder ts) (hts : ∀ t ∈ ts, t.span.Marks source) : s.Marks source := by
  obtain ⟨us, hus, ⟨t, ht, hoffset, hline⟩, u, hu, hstop⟩ := h
  have hle := (ho.sublist hus.sublist).first_le ht (List.mem_of_getLast? hu)
  obtain ⟨before, first, behind, hsource, hfirst⟩ :=
    hts t (hus.subset (List.mem_of_mem_head? ht))
  obtain ⟨before', last, rest, hsource', hlast⟩ := hts u (hus.subset (List.mem_of_getLast? hu))
  rw [hfirst] at hoffset hline hle
  rw [hlast] at hstop hle
  simp only [Span.stop] at hstop hle
  have hbefore : before.toList <+: source.toList :=
    ⟨(first ++ behind).toList, by simp [hsource]⟩
  have hthrough : (before' ++ last).toList <+: source.toList :=
    ⟨rest.toList, by simp [hsource']⟩
  obtain ⟨text, htext⟩ := prefix_of_byteLength_le hbefore hthrough (by
    rw [← utf8ByteSize_eq, ← utf8ByteSize_eq, String.utf8ByteSize_append]
    omega)
  have htext : before ++ String.ofList text = before' ++ last := by
    rw [← String.toList_inj, String.toList_append, String.toList_ofList, htext]
  refine ⟨before, String.ofList text, rest, by rw [htext, hsource'], ?_⟩
  have hsize := congrArg String.utf8ByteSize htext
  simp only [String.utf8ByteSize_append] at hsize
  obtain ⟨offset, len, line⟩ := s
  simp only [Span.mk.injEq] at hoffset hline hstop ⊢
  omega

/-- The tokens that delimit a place, by their numbers. -/
theorem Delimited.tokens {ts : List Token} {s : Span} (h : Delimited ts s) :
    ∃ (i j : Nat) (first last : Token), i ≤ j ∧ ts[i]? = some first ∧ ts[j]? = some last ∧
      s.offset = first.span.offset ∧ s.stop = last.span.stop := by
  obtain ⟨us, ⟨front, back, rfl⟩, ⟨t, ht, hoffset, -⟩, u, hu, hstop⟩ := h
  obtain ⟨more, rfl⟩ := List.head?_eq_some_iff.1 ht
  refine ⟨front.length, front.length + more.length, t, u, Nat.le_add_right _ _, ?_, ?_, hoffset,
    hstop⟩
  · simp
  · rw [List.getLast?_eq_getElem?] at hu
    rw [List.append_assoc, List.getElem?_append_right (Nat.le_add_right _ _),
      List.getElem?_append_left (by simp)]
    simpa using hu

namespace Program

/-- **The places of a program that was read from a source.**  Each begins where a token begins and
ends where that one or a later one ends; it is a stretch of the source, on the line on which that
begins.  The place of a node holds those of its children and all places at which it points. -/
theorem spans_nested {source : String} {tokens : List Token} {supply supply' : Supply}
    {p : Program} (hscan : scan source = .ok tokens)
    (hparse : parse tokens supply = (.ok p, supply')) {n : Node} (hn : p.Contains n) :
    (∀ s ∈ n.span :: n.landmarks,
      (∃ (i j : Nat) (first last : Token), i ≤ j ∧
        tokens[i]? = some first ∧ tokens[j]? = some last ∧
        s.offset = first.span.offset ∧ s.stop = last.span.stop) ∧
      ∃ before text rest : String, source = before ++ text ++ rest ∧
        s = ⟨before.utf8ByteSize, text.utf8ByteSize, 1 + before.toList.count '\n'⟩) ∧
    ∀ s ∈ n.children.map Node.span ++ n.landmarks,
      n.span.offset ≤ s.offset ∧ s.stop ≤ n.span.stop := by
  obtain ⟨ho, htokens⟩ := scan_inOrder hscan
  obtain ⟨d, hd, hbelow⟩ := hn
  have hfits := (parse_phrase hparse).lies ho d hd hbelow
  refine ⟨fun s hs => ?_, fun s hs => ?_⟩
  · have hdelimited : Delimited (tokens.takeWhile Cursor.isInner) s := by
      rcases List.mem_cons.1 hs with rfl | hs
      · exact hfits.span
      · exact hfits.landmarks s hs
    refine ⟨?_, hdelimited.marks ho htokens⟩
    exact (hdelimited.mono (List.takeWhile_prefix _).isInfix).tokens
  · have hinside : s.Inside n.span := by
      rcases List.mem_append.1 hs with hs | hs
      · obtain ⟨c, hc, rfl⟩ := List.mem_map.1 hs
        exact hfits.holds c hc
      · exact hfits.pointsInside s hs
    exact ⟨hinside.offset, hinside.stop⟩

/-- The loop for which a `for` stands has the place of the whole, and so has its body; the condition
that is left out has that of its semicolon. -/
theorem spans_nested_loop :
    ∃ ts p s' n, scan "\nfor (; ; ) f(x);" = .ok ts ∧ parse ts .full = (.ok p, s') ∧
      p.Contains n ∧ n.span = ⟨1, 16, 2⟩ ∧ n.children.map Node.span = [⟨8, 1, 2⟩, ⟨1, 16, 2⟩] ∧
      ∀ s ∈ n.children.map Node.span, 1 ≤ s.offset ∧ s.stop ≤ 17 := by
  -- the loop is the statement in the block that stands for the whole
  have hread :
      ((scan "\nfor (; ; ) f(x);").toOption.bind fun ts => (parse ts .full).1.toOption.map fun p =>
        ((((p.declarations.map Node.decl).flatMap Node.children).flatMap Node.children).flatMap
          Node.children).map fun n => (n.span, n.children.map Node.span)) =
      some [(⟨1, 16, 2⟩, [⟨8, 1, 2⟩, ⟨1, 16, 2⟩])] := by
    decide +kernel
  cases hscan : scan "\nfor (; ; ) f(x);" with
  | error errors =>
      rw [hscan] at hread
      cases hread
  | ok ts =>
      rw [hscan, Except.toOption, Option.bind_some] at hread
      rcases hparse : parse ts .full with ⟨result, s'⟩
      rw [hparse] at hread
      cases result with
      | error errors => cases hread
      | ok p =>
          obtain ⟨n, hlevel, hn⟩ := List.map_eq_singleton_iff.1 (Option.some.inj hread)
          obtain ⟨hspan, hchildren⟩ := Prod.mk.inj hn
          have hmem := List.mem_singleton.2 (Eq.refl n)
          rw [← hlevel] at hmem
          obtain ⟨inner, hinner, hloop⟩ := List.mem_flatMap.1 hmem
          obtain ⟨block, hblock, hinner⟩ := List.mem_flatMap.1 hinner
          obtain ⟨outer, houter, hblock⟩ := List.mem_flatMap.1 hblock
          obtain ⟨d, hd, rfl⟩ := List.mem_map.1 houter
          have hcontains : p.Contains n :=
            ⟨d, hd, .head hblock (.head hinner (.single hloop))⟩
          have hinside := (spans_nested hscan hparse hcontains).2
          rw [hspan] at hinside
          exact ⟨ts, p, s', n, rfl, hparse, hcontains, hspan, hchildren,
            fun s hs => hinside s (List.mem_append_left _ hs)⟩

end Program

end Scriptlet
