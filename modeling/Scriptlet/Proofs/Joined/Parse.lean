/-
**Parsing two sources in one.**

At the end of a declaration the parser has looked no farther than at whether an `else` follows.  So
the declarations of a source without errors are read in the same way when other tokens follow them,
and the parser stands in front of these tokens as if they were the whole source, but for the numbers
it has given away.  It then reads them as they would be read alone, errors and recovery included.

Main definitions:

* `Scriptlet.Program.answer` — what becomes of the declarations that were read, or not read;
* `Scriptlet.Program.answerBehind` — an answer, moved and behind other declarations.

Main results:

* `Scriptlet.Parser.declarations_behind` — the declarations of a source are read before those that
  follow;
* `Scriptlet.Program.parse_renumbered` — **the same tokens are parsed alike with other numbers**;
* `Scriptlet.Program.parse_relocate` — **tokens that have moved are parsed alike**;
* `Scriptlet.Program.parse_joined` — **the tokens of two sources in one are parsed as those of the
  first, and then those of the second**.
-/

import Scriptlet.Proofs.Joined.Reading

set_option relaxedAutoImplicit false
set_option autoImplicit false

namespace Scriptlet

variable {φ : Relocation} {rest : List Token}

/-! ### The declarations of the first source -/

theorem Cursor.ofTokens_append {inner : List Token} {finish : Token}
    (hinner : ∀ t ∈ inner, isInner t = true) (hfinish : finish.kind = .endOfSource) (s : Supply) :
    ofTokens (inner ++ [finish]) s = ⟨inner, finish, finish, s, []⟩ := by
  have hlast : isInner finish = false := by simp [isInner, hfinish]
  have htake : (inner ++ [finish]).takeWhile isInner = inner := by
    rw [List.takeWhile_append_of_pos hinner]
    simp [hlast]
  have hfind : finishOf (inner ++ [finish]) = finish := by
    have hnone : inner.find? (fun t => !isInner t) = none :=
      List.find?_eq_none.2 fun t ht => by simp [hinner t ht]
    simp [finishOf, List.find?_append, hnone, hlast]
  rw [ofTokens, htake, hfind]

theorem Token.kind_ne_elseWord {t : Token} (h : t.kind = .endOfSource) : t.kind ≠ .elseWord := by
  rw [h]
  decide

namespace Parser

/-- Declarations, read behind others. -/
def declarationsBehind [Counter] (ds : List Decl) (fuel : Nat) : Parser (List Decl) := do
  let others ← declarations fuel false
  pure (ds ++ others)

theorem declarationsBehind_nil [Counter] (fuel : Nat) (c : Cursor) :
    declarationsBehind [] fuel c = declarations fuel false c := by
  unfold declarationsBehind
  rw [bind_apply]
  cases declarations fuel false c <;> rfl

theorem declarationsBehind_trans {ds others : List Decl} {fuel fuel' : Nat} {c c' : Cursor}
    (h : declarations fuel false c = declarationsBehind others fuel' c') :
    declarationsBehind ds fuel c = declarationsBehind (ds ++ others) fuel' c' := by
  unfold declarationsBehind at h ⊢
  rw [bind_apply] at h
  rw [bind_apply, bind_apply, h]
  cases declarations fuel' false c' with
  | done es c => exact congrArg (Reply.done · c) (List.append_assoc ds others es).symm
  | failed e c => rfl
  | starved => rfl

/-- **The declarations of a source are read before those that follow.**  Each of them passes a
token, so that little fuel is lost. -/
theorem declarations_behind {n n' : Nat} {c c' c₁ : Cursor} {ds : List Decl}
    (hc : c.Follows .id rest False False c') (h : declarations n false c = .done ds c₁)
    (herrors : c₁.errors = []) (hn : n ≤ n') :
    ∃ m c₁', n' ≤ m + c.ahead.length ∧ c₁.ahead = [] ∧ c₁.Follows .id rest False False c₁' ∧
      c₁'.finish = c'.finish ∧ declarations n' false c' = declarationsBehind ds m c₁' := by
  induction n generalizing n' c c' ds with
  | zero => cases h
  | succ n ih =>
      obtain ⟨k, rfl⟩ : ∃ k, n' = k + 1 := ⟨n' - 1, by omega⟩
      have hrun := h
      rw [declarations, check_bind, atEnd_bind] at hrun
      split at hrun
      · rename_i hend
        obtain ⟨rfl, rfl⟩ := pure_done hrun
        refine ⟨k + 1, c', Nat.le_add_right _ _, by simpa using hend, hc, rfl, ?_⟩
        exact (declarationsBehind_nil _ _).symm
      · rename_i hend
        have hne : c.ahead ≠ [] := by simpa using hend
        obtain ⟨d, c₂, hd, hrun⟩ := bind_done hrun
        obtain ⟨others, c₃, hothers, hrun⟩ := bind_done hrun
        obtain ⟨rfl, rfl⟩ := pure_done hrun
        have herrors₂ : c₂.errors = [] := by
          have hreach := (forwardStatements n).declarations false c₂
          rw [hothers] at hreach
          exact List.suffix_nil.1 (herrors ▸ hreach.errors)
        have hlength := declaration_length n hc.finish hd hne
        have htracks : TracksStatements .id rest False n k :=
          tracksStatements Relocation.rigid_id (Nat.le_of_succ_le_succ hn)
        obtain ⟨c₂', hd', hc₂⟩ :=
          (htracks.declaration False).done hc hd (.inr ⟨herrors₂, fun h => by cases h⟩)
        obtain ⟨m, c₁', hm, hahead, hc₁, hfinish, hrest⟩ :=
          ih hc₂ hothers (Nat.le_of_succ_le_succ hn)
        have hreach := (forwardStatements k).declaration c'
        rw [hd'] at hreach
        refine ⟨m, c₁', by omega, hahead, hc₁, hfinish.trans hreach.finish, ?_⟩
        have hend' : c'.ahead.isEmpty = false := by
          rw [hc.ahead]
          obtain ⟨t, ts, hts⟩ := List.exists_cons_of_ne_nil hne
          rw [hts]
          rfl
        rw [declarations, check_bind, atEnd_bind, if_neg (by simp [hend']), bind_of_done hd',
          Decl.relocate_id_option]
        exact declarationsBehind_trans hrest

end Parser

/-! ### Answers -/

namespace Program

/-- What becomes of the declarations of a source, read or not read. -/
def answer (s : Supply) : Reply (List Decl) → Except (List SyntaxError) Program × Supply
  | .done decls c =>
      match c.errors with
      | [] => (.ok ⟨decls⟩, c.supply)
      | errors => (.error errors.reverse, c.supply)
  | .failed e c => (.error (e :: c.errors).reverse, c.supply)
  | .starved => (.error [], s)

theorem parse_eq_answer [Counter] (ts : List Token) (s : Supply) :
    parse ts s = answer s (Parser.declarations (fuelFor ts) false (Cursor.ofTokens ts s)) := rfl

/-- An answer, moved and behind other declarations. -/
def answerBehind (φ : Relocation) (ds : List Decl) :
    Except (List SyntaxError) Program × Supply → Except (List SyntaxError) Program × Supply
  | (.ok p, s) => (.ok ⟨ds ++ Decl.allRelocate φ p.declarations⟩, s.relocate φ)
  | (.error errors, s) => (.error (errors.map (SyntaxError.relocate φ)), s.relocate φ)

/-- Where no more tokens follow, an answer is the same behind other declarations. -/
theorem answer_behind [Counter] (hφ : φ.Rigid) {n m : Nat} {c c' : Cursor} (hn : n ≤ m)
    (hc : c.Follows φ [] True False c')
    (hfed : Parser.declarations (W := .endless) n false c ≠ .starved) (ds : List Decl)
    (s s' : Supply) :
    answer s' (Parser.declarationsBehind ds m c') =
      answerBehind φ ds (answer s (Parser.declarations (W := .endless) n false c)) := by
  have htracks : Parser.TracksStatements φ [] True n m := Parser.tracksStatements hφ hn
  unfold Parser.declarationsBehind
  cases h : Parser.declarations (W := .endless) n false c with
  | done others c₁ =>
      obtain ⟨c₁', h', hc₁⟩ := (htracks.declarations False false).done hc h (.inl trivial)
      rw [Parser.bind_of_done h', Parser.pure_apply, answer, answer, hc₁.errors, hc₁.supply]
      cases c₁.errors with
      | nil => rfl
      | cons e es => simp [answerBehind]
  | failed e c₁ =>
      obtain ⟨c₁', h', hc₁⟩ := (htracks.declarations False false).failed hc h trivial
      rw [Parser.bind_apply, h', answer, answer, hc₁.errors, hc₁.supply]
      simp [answerBehind]
  | starved => exact absurd h hfed

/-- **The same tokens are read alike with other numbers**, also if these follow one another in
another way. -/
theorem parse_renumbered [Counter] (hφ : φ.Rigid) (hspan : φ.span = fun place => place)
    (ts : List Token) (s : Supply) :
    parse ts (s.relocate φ) = answerBehind φ [] (parse (W := .endless) ts s) := by
  have hplace : Token.relocate φ = id := by
    funext t
    rw [Token.relocate, hspan]
    rfl
  have hstart : (Cursor.ofTokens ts s).Follows φ [] True False
      (Cursor.ofTokens ts (s.relocate φ)) := by
    refine ⟨?_, ofTokens_finish ts s, ?_, fun _ => ⟨rfl, ?_⟩, rfl, rfl, False.elim⟩
    · rw [hplace, List.map_id, List.append_nil]
      rfl
    · exact Token.kind_ne_elseWord (ofTokens_finish ts s)
    · rw [hplace]
      rfl
  rw [parse_eq_answer, @parse_eq_answer .endless, ← Parser.declarationsBehind_nil]
  exact answer_behind hφ (Nat.le_refl _) hstart (declarations_ne_starved ts s) [] _ _

/-- The declarations of a program that was parsed were read without errors. -/
theorem declarations_of_parse {ts : List Token} {s s₁ : Supply} {p : Program}
    (hp : parse ts s = (.ok p, s₁)) :
    ∃ c, Parser.declarations (fuelFor ts) false (Cursor.ofTokens ts s) = .done p.declarations c ∧
      c.errors = [] ∧ c.supply = s₁ := by
  rw [parse_eq_answer] at hp
  cases h : Parser.declarations (fuelFor ts) false (Cursor.ofTokens ts s) with
  | done ds c =>
      rw [h, answer] at hp
      split at hp
      · rename_i herrors
        cases hp
        exact ⟨c, rfl, herrors, rfl⟩
      · cases hp
  | failed e c =>
      rw [h] at hp
      cases hp
  | starved =>
      rw [h] at hp
      cases hp

section Tokens

variable {inner inner' : List Token} {finish finish' : Token} {s s₁ t : Supply} {p : Program}

theorem ofTokens_relocate (φ : Relocation) (hinner : ∀ t ∈ inner, Cursor.isInner t = true)
    (hfinish : finish.kind = .endOfSource) (s : Supply) :
    Cursor.ofTokens ((inner ++ [finish]).map (Token.relocate φ)) s =
      ⟨inner.map (Token.relocate φ), finish.relocate φ, finish.relocate φ, s, []⟩ := by
  rw [List.map_append, List.map_singleton]
  refine Cursor.ofTokens_append (fun t ht => ?_) ((Token.kind_relocate φ finish).trans hfinish) _
  obtain ⟨u, hu, rfl⟩ := List.mem_map.1 ht
  exact hinner u hu

/-- **Tokens that have moved are parsed alike.** -/
theorem parse_relocate (hφ : φ.Rigid) (hinner : ∀ t ∈ inner, Cursor.isInner t = true)
    (hfinish : finish.kind = .endOfSource) (s : Supply) :
    parse ((inner ++ [finish]).map (Token.relocate φ)) (s.relocate φ) =
      answerBehind φ [] (parse (inner ++ [finish]) s) := by
  have hfuel : fuelFor ((inner ++ [finish]).map (Token.relocate φ)) =
      fuelFor (inner ++ [finish]) := by
    rw [fuelFor, List.length_map, fuelFor]
  rw [parse_eq_answer, parse_eq_answer, hfuel, ← Parser.declarationsBehind_nil]
  refine answer_behind hφ (Nat.le_refl _) ?_ (declarations_ne_starved _ s) [] _ _
  rw [ofTokens_relocate φ hinner hfinish, Cursor.ofTokens_append hinner hfinish]
  exact ⟨(List.append_nil _).symm, hfinish, Token.kind_ne_elseWord hfinish,
    fun _ => ⟨rfl, rfl⟩, rfl, rfl, False.elim⟩

/-- **The tokens of two sources in one are parsed as those of the first, and then those of the
second.** -/
theorem parse_joined (hφ : φ.Rigid) (hinner : ∀ t ∈ inner, Cursor.isInner t = true)
    (hfinish : finish.kind = .endOfSource) (hinner' : ∀ t ∈ inner', Cursor.isInner t = true)
    (hfinish' : finish'.kind = .endOfSource)
    (hfirst : (inner'.headD finish').kind ≠ .elseWord)
    (hp : parse (inner ++ [finish]) s = (.ok p, s₁)) (ht : t.relocate φ = s₁) :
    parse (inner ++ (inner' ++ [finish']).map (Token.relocate φ)) s =
      answerBehind φ p.declarations (parse (inner' ++ [finish']) t) := by
  obtain ⟨c₁, hread, herrors, hsupply⟩ := declarations_of_parse hp
  rw [Cursor.ofTokens_append hinner hfinish] at hread
  have hstart : Cursor.Follows .id (inner'.map (Token.relocate φ)) False False
      ⟨inner, finish, finish, s, []⟩
      ⟨inner ++ inner'.map (Token.relocate φ), finish'.relocate φ, finish'.relocate φ, s, []⟩ := by
    refine ⟨?_, hfinish, ?_, False.elim, rfl, rfl, False.elim⟩
    · rw [show Token.relocate .id = id from rfl, List.map_id]
    · cases inner' with
      | nil => exact hfirst
      | cons t ts => exact hfirst
  have hjoined : Cursor.ofTokens (inner ++ (inner' ++ [finish']).map (Token.relocate φ)) s =
      ⟨inner ++ inner'.map (Token.relocate φ), finish'.relocate φ, finish'.relocate φ, s, []⟩ := by
    rw [List.map_append, ← List.append_assoc, List.map_singleton]
    refine Cursor.ofTokens_append (fun u hu => ?_)
      ((Token.kind_relocate φ finish').trans hfinish') _
    rcases List.mem_append.1 hu with hu | hu
    · exact hinner u hu
    · obtain ⟨v, hv, rfl⟩ := List.mem_map.1 hu
      exact hinner' v hv
  have hfuel : fuelFor (inner ++ [finish]) ≤
      fuelFor (inner ++ (inner' ++ [finish']).map (Token.relocate φ)) := by
    simp +arith [fuelFor]
  obtain ⟨m, c₁', hm, hahead, hc₁, hlast, hall⟩ :=
    Parser.declarations_behind hstart hread herrors hfuel
  rw [parse_eq_answer, parse_eq_answer, hjoined, hall]
  refine answer_behind hφ ?_ ?_ (declarations_ne_starved _ t) _ _ _
  · simp only [fuelFor, List.length_append, List.length_map] at hm ⊢
    omega
  · -- what is left is the second source, at its new place
    have hahead₁ := hc₁.ahead
    have hsupply₁ := hc₁.supply
    rw [hahead] at hahead₁
    rw [Cursor.ofTokens_append hinner' hfinish']
    refine ⟨by rw [hahead₁, List.append_nil]; rfl, hfinish', ?_, fun _ => ⟨rfl, hlast⟩, ?_, ?_,
      False.elim⟩
    · rw [hlast]
      exact Token.kind_ne_elseWord hfinish'
    · rw [hsupply₁, hsupply, ← ht]
      rfl
    · rw [hc₁.errors, herrors]
      rfl

end Tokens

end Program

end Scriptlet
