/-
**Compiled programs.**

A source that compiles gives a program without fault at any site, and the resolutions of its sites.
Its expressions have numbers, and its routines labels, that no other program compiled with the same
supply has, and none of the names in it is a reserved word.

Main definitions:

* `Scriptlet.Compiled.Ordered` — what is true of a compiled program.

Main results:

* `Scriptlet.compile_ordered` — **it is true of every compiled program**;
* `Scriptlet.supply_compile` — no number is given away twice, whether a source compiles or not.
-/

import Scriptlet.Compile
import Scriptlet.Proofs.Program.Numbering
import Scriptlet.Proofs.Program.Soundness
import Scriptlet.Proofs.Scope.Rows
import Scriptlet.Proofs.Token.Segmentation

set_option relaxedAutoImplicit false
set_option autoImplicit false

namespace Scriptlet

/-! ### Names -/

/-- A lexeme that is spelled like a word for the receiver or the superclass is that word. -/
theorem plain_of_kind {lexeme : String} (h : Lexeme.kind lexeme.toList = .identifier) :
    Plain lexeme := by
  constructor
  · rintro rfl
    revert h
    decide
  · rintro rfl
    revert h
    decide

/-- The names among the tokens of a source are no reserved words. -/
theorem spells_scan {source : String} {tokens : List Token} (h : scan source = .ok tokens) :
    Spells Plain tokens := by
  unfold scan at h
  have hsource := Lexeme.shebang_append source.toList
  dsimp only at h
  split at h
  · rename_i herrors
    obtain rfl := Except.ok.inj h
    have hsegments := segments_scanFrom herrors
    intro t ht hk
    rcases List.mem_append.1 ht with ht | ht
    · have hplaced := placed_mem hsource.symm hsegments ht
      exact plain_of_kind (hplaced.2.1 ▸ hk)
    · rw [List.mem_singleton.1 ht] at hk
      cases hk
  · cases h

/-! ### Compiled programs -/

/-- A source that compiles was scanned and parsed. -/
theorem compile_ok {source : String} {s s₁ : Supply} {c : Compiled}
    (h : compile source s = (.ok c, s₁)) :
    ∃ ts p, scan source = .ok ts ∧ Program.parse ts s = (.ok p, s₁) ∧ p.compile = .ok c := by
  unfold compile Program.ofSource at h
  cases hscan : scan source with
  | error errors =>
      rw [hscan] at h
      cases h
  | ok ts =>
      rw [hscan] at h
      dsimp only at h
      cases hparse : Program.parse ts s with
      | mk result s' =>
          rw [hparse] at h
          cases result with
          | error errors => cases h
          | ok p =>
              obtain ⟨hcompile, rfl⟩ := Prod.mk.inj h
              exact ⟨ts, p, rfl, hparse, hcompile⟩

theorem compile_of_parse {source : String} {s s₁ : Supply} {ts : List Token} {p : Program}
    (hscan : scan source = .ok ts) (hparse : Program.parse ts s = (.ok p, s₁)) :
    compile source s = (p.compile, s₁) := by
  unfold compile Program.ofSource
  rw [hscan]
  dsimp only
  rw [hparse]

/-- A compiled program is the program itself, with its resolutions. -/
theorem Program.resolve_of_compile {p : Program} {c : Compiled} (h : p.compile = .ok c) :
    c.program = p ∧ p.resolve = .ok c.resolutions := by
  unfold compile at h
  cases hresolve : p.resolve with
  | error errors =>
      rw [hresolve] at h
      cases h
  | ok resolutions =>
      rw [hresolve] at h
      cases h
      exact ⟨rfl, rfl⟩

/-- What is true of a program that was compiled between two supplies. -/
structure Compiled.Ordered (s : Supply) (c : Compiled) (s' : Supply) : Prop where
  faultless : ∀ site ∈ c.program.sites, site.Faultless
  resolutions : c.resolutions = c.program.sites.filterMap Site.resolution?
  references : Numbered s.expr (referenceIds c.program.sites) s'.expr
  routines : Numbered s.routine (routineLabels c.program.sites) s'.routine
  plain : Mentions Plain c.program.sites

/-- **What is true of every compiled program.** -/
theorem compile_ordered {source : String} {s s' : Supply} {c : Compiled}
    (h : compile source s = (.ok c, s')) : c.Ordered s s' := by
  obtain ⟨tokens, p, hscan, hparse, hcompile⟩ := compile_ok h
  obtain ⟨rfl, hresolve⟩ := Program.resolve_of_compile hcompile
  obtain ⟨hfaultless, hresolutions⟩ := Program.resolve_eq_ok.1 hresolve
  have hphrase := Program.parse_phrase hparse
  have hgiven := hphrase.given
  have hspells : Spells Plain (tokens.takeWhile Cursor.isInner) :=
    fun t ht => spells_scan hscan t (List.takeWhile_subset _ ht)
  refine ⟨hfaultless, hresolutions, ?_, ?_, hphrase.names .global hspells⟩
  · exact hgiven.ids.sublist (Decl.allReferenceIds_sublist .global c.program.declarations)
  · rw [Program.sites, Decl.allRoutineLabels_eq]
    exact hgiven.labels

/-- No number is given away twice, whether a source compiles or not. -/
theorem supply_compile (source : String) (s : Supply) : s.Le (compile source s).2 := by
  unfold compile Program.ofSource
  cases scan source with
  | error errors => exact .refl s
  | ok tokens =>
      have h := Program.supply_parse tokens s
      dsimp only
      cases hparse : Program.parse tokens s with
      | mk result s₁ =>
          rw [hparse] at h
          cases result <;> exact h

end Scriptlet
