/-
**The references that are resolved.**

A program refers to names where it reads or writes a variable, at `this` and `super`, and where a
class names its superclass.  Such a reference is resolved if a scope around it has declared the name
in front of it, and then the distance leads to the innermost scope that has.  It is kept for good if
it stands inside a routine, which may be called later, and otherwise for one run only.

Main definitions:

* `Scriptlet.Spot.reference?` — the number and the name of the reference at a spot;
* `Scriptlet.Spot.Resolves` — a reference whose name the scope at a distance has declared.

Main results:

* `Scriptlet.Spot.resolution?_site` — resolution answers at a spot what the trail says;
* `Scriptlet.Compiled.Ordered.mem_resolutions_iff` — the resolutions of a program are those of its
  spots;
* `Scriptlet.compile_resolutions_exact` — **the resolutions of a source that compiles**.
-/

import Scriptlet.Proofs.Scope.Trails
import Scriptlet.Proofs.Session.Distances

set_option relaxedAutoImplicit false
set_option autoImplicit false

namespace Scriptlet

namespace Spot

/-- The number and the name of the reference at a spot. -/
def reference? (s : Spot) : Option (ExprId × String) := s.site.reference?

/-- A reference whose name the scope at a distance has declared, as the innermost to do so. -/
def Resolves (s : Spot) (id : ExprId) (distance : Nat) : Prop :=
  ∃ name, s.reference? = some (id, name) ∧ s.trail.Binds name distance

/-- **Resolution answers at a spot what the trail says.** -/
theorem resolution?_site (s : Spot) (r : Resolution) :
    s.site.resolution? = some r ↔
      s.Resolves r.id r.distance ∧ (r.inRoutine = true ↔ s.trail.InRoutine) := by
  have hroutine : (r.inRoutine = true ↔ s.trail.InRoutine) ↔
      s.trail.context.inRoutine = r.inRoutine := by
    rw [← s.trail.inRoutine_context, ← Bool.eq_iff_iff]
    exact eq_comm
  rw [hroutine]
  constructor
  · intro h
    obtain ⟨name, hreference, hdistance, hinside⟩ := Site.reference?_of_resolution? h
    exact ⟨⟨name, hreference, (s.trail.distance?_context name _).1 hdistance⟩, hinside.symm⟩
  · rintro ⟨⟨name, hreference, hbinds⟩, hinside⟩
    have hdistance : s.site.ctx.distance? name = some r.distance :=
      (s.trail.distance?_context name _).2 hbinds
    have hflag : s.site.ctx.inRoutine = r.inRoutine := hinside
    have hsite : s.site.reference? = some (r.id, name) := hreference
    simp only [Site.resolution?, hsite, hdistance, hflag, Option.map_some]

end Spot

/-- The numbers of references are those at the spots. -/
theorem Program.referenceIds_sites (p : Program) :
    referenceIds p.sites = (p.spots.filterMap Spot.reference?).map Prod.fst := by
  rw [referenceIds, p.sites_eq_spots, List.filterMap_map]
  rfl

/-- The resolutions of a program are those of its spots. -/
theorem Compiled.Ordered.mem_resolutions_iff {c : Compiled} {s s' : Supply} (h : c.Ordered s s')
    (r : Resolution) :
    r ∈ c.resolutions ↔ ∃ spot ∈ c.program.spots,
      spot.Resolves r.id r.distance ∧ (r.inRoutine = true ↔ spot.trail.InRoutine) := by
  rw [h.resolutions, c.program.sites_eq_spots, List.mem_filterMap]
  constructor
  · rintro ⟨site, hsite, hresolution⟩
    obtain ⟨spot, hspot, rfl⟩ := List.mem_map.1 hsite
    exact ⟨spot, hspot, (spot.resolution?_site r).1 hresolution⟩
  · rintro ⟨spot, hspot, hresolves⟩
    exact ⟨_, List.mem_map_of_mem hspot, (spot.resolution?_site r).2 hresolves⟩

/-- **The resolutions of a source that compiles.**  No two references have the same number, and none
is resolved twice.  A reference is resolved if and only if a scope around it has declared its name
in front of it; the distance leads to the innermost scope that has; and it is marked as standing
inside a routine exactly if it does.  Nothing else is resolved. -/
theorem compile_resolutions_exact {source : String} {s s' : Supply} {c : Compiled}
    (h : compile source s = (.ok c, s')) :
    ((c.program.spots.filterMap Spot.reference?).map Prod.fst).Nodup ∧
      (c.resolutions.map Resolution.id).Nodup ∧
      ∀ r, r ∈ c.resolutions ↔ ∃ spot ∈ c.program.spots,
        spot.Resolves r.id r.distance ∧ (r.inRoutine = true ↔ spot.trail.InRoutine) := by
  have hordered := compile_ordered h
  refine ⟨?_, hordered.resolution_nodup, hordered.mem_resolutions_iff⟩
  rw [← c.program.referenceIds_sites]
  exact hordered.references.nodup

/-- A class with a superclass in a block, whose method refers to its superclass, its receiver, its
parameter, its own variable and its own class. -/
theorem compile_resolutions_exact_method :
    ∃ c s', compile ("\x7b class A \x7b\x7d class B < A \x7b m(x) \x7b var a = super.m; " ++
        "\x7b a = x; return B(this); \x7d \x7d \x7d var c = c = A; print g + c; \x7d") .full =
          (.ok c, s') ∧
      c.resolutions = [⟨0, 0, false⟩, ⟨1, 2, true⟩, ⟨3, 1, true⟩, ⟨4, 1, true⟩, ⟨5, 4, true⟩,
        ⟨6, 2, true⟩, ⟨9, 0, false⟩, ⟨10, 0, false⟩, ⟨12, 0, false⟩] ∧
      ∃ spot ∈ c.program.spots, spot.Resolves 5 4 ∧ spot.trail.InRoutine := by
  have hresolutions :
      (match compile ("\x7b class A \x7b\x7d class B < A \x7b m(x) \x7b var a = super.m; " ++
          "\x7b a = x; return B(this); \x7d \x7d \x7d var c = c = A; print g + c; \x7d") .full with
        | (.ok c, _) => c.resolutions
        | (.error _, _) => []) =
      [⟨0, 0, false⟩, ⟨1, 2, true⟩, ⟨3, 1, true⟩, ⟨4, 1, true⟩, ⟨5, 4, true⟩,
        ⟨6, 2, true⟩, ⟨9, 0, false⟩, ⟨10, 0, false⟩, ⟨12, 0, false⟩] := by
    decide +kernel
  split at hresolutions
  · rename_i c s' hcompile
    obtain ⟨-, -, hexact⟩ := compile_resolutions_exact hcompile
    refine ⟨c, s', hcompile, hresolutions, ?_⟩
    obtain ⟨spot, hspot, hresolves, hinside⟩ := (hexact ⟨5, 4, true⟩).1 (by simp [hresolutions])
    exact ⟨spot, hspot, hresolves, hinside.1 rfl⟩
  · cases hresolutions

end Scriptlet
