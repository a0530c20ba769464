/-
**The distances that a session keeps.**

The resolutions of a program are handed to the session as distances by number.  Since no two
references of a program have the same number, each of them finds its own distance there, and a
reference to a global finds none.

Main definitions:

* `Scriptlet.insertAll` — a map with distances added.

Main results:

* `Scriptlet.Compiled.Ordered.site_unique`, `Scriptlet.Compiled.Ordered.resolution_unique`,
  `Scriptlet.Compiled.Ordered.routine_unique` — a number tells the site and the resolution, a label
  the routine;
* `Scriptlet.Compiled.Ordered.getElem?_insertAll` — **each reference finds its distance**;
* `Scriptlet.Compiled.Ordered.good` — then the sites of the program are in order.
-/

import Mathlib.Data.List.Nodup
import Scriptlet.Proofs.Lexical.Places
import Scriptlet.Proofs.Program.Compiled
import Scriptlet.Proofs.Scope.Routines

set_option relaxedAutoImplicit false
set_option autoImplicit false

namespace Scriptlet

/-! ### Maps -/

/-- A map with distances added. -/
abbrev insertAll (map : ResolutionMap) (ds : List (ExprId × Nat)) : ResolutionMap :=
  ds.foldl (fun map d => map.insert d.1 d.2) map

theorem getElem?_insertAll_of_not_mem {ds : List (ExprId × Nat)} {id : ExprId}
    (h : id ∉ ds.map Prod.fst) (map : ResolutionMap) : (insertAll map ds)[id]? = map[id]? := by
  induction ds generalizing map with
  | nil => rfl
  | cons d ds ih =>
      rw [List.map_cons, List.mem_cons, not_or] at h
      rw [insertAll, List.foldl_cons, ih h.2, Std.TreeMap.getElem?_insert]
      exact if_neg fun e => h.1 (Nat.compare_eq_eq.1 e).symm

theorem getElem?_insertAll_of_mem {ds : List (ExprId × Nat)} (hnodup : (ds.map Prod.fst).Nodup)
    {d : ExprId × Nat} (hd : d ∈ ds) (map : ResolutionMap) :
    (insertAll map ds)[d.1]? = some d.2 := by
  induction ds generalizing map with
  | nil => cases hd
  | cons e ds ih =>
      rw [List.map_cons, List.nodup_cons] at hnodup
      rw [insertAll, List.foldl_cons]
      rcases List.mem_cons.1 hd with rfl | hd
      · rw [getElem?_insertAll_of_not_mem hnodup.1, Std.TreeMap.getElem?_insert]
        exact if_pos (Nat.compare_eq_eq.2 rfl)
      · exact ih hnodup.2 hd _

/-! ### Numbers and labels -/

/-- Entries that are listed without repetition tell where they come from. -/
theorem eq_of_nodup_filterMap {α β γ : Type} {f : α → Option β} {g : β → γ} {as : List α}
    (h : ((as.filterMap f).map g).Nodup) {a a' : α} (ha : a ∈ as) (ha' : a' ∈ as) {b b' : β}
    (hb : f a = some b) (hb' : f a' = some b') (hg : g b = g b') : a = a' := by
  induction as with
  | nil => cases ha
  | cons c as ih =>
      have hmem : ∀ {x : α} {y : β}, x ∈ as → f x = some y → g y ∈ (as.filterMap f).map g :=
        fun hx hy => List.mem_map_of_mem (List.mem_filterMap.2 ⟨_, hx, hy⟩)
      rcases List.mem_cons.1 ha with rfl | hlater <;> rcases List.mem_cons.1 ha' with rfl | hlater'
      · rfl
      · rw [List.filterMap_cons_some hb, List.map_cons, List.nodup_cons, hg] at h
        exact absurd (hmem hlater' hb') h.1
      · rw [List.filterMap_cons_some hb', List.map_cons, List.nodup_cons, ← hg] at h
        exact absurd (hmem hlater hb) h.1
      · refine ih ?_ hlater hlater'
        cases hc : f c with
        | none =>
            rw [List.filterMap_cons_none hc] at h
            exact h
        | some y =>
            rw [List.filterMap_cons_some hc, List.map_cons, List.nodup_cons] at h
            exact h.2

/-- A site with a resolution has a reference of that number. -/
theorem Site.reference?_of_resolution? {s : Site} {r : Resolution} (h : s.resolution? = some r) :
    ∃ name, s.reference? = some (r.id, name) ∧ s.ctx.distance? name = some r.distance ∧
      r.inRoutine = s.ctx.inRoutine := by
  unfold Site.resolution? at h
  cases hr : s.reference? with
  | none =>
      rw [hr] at h
      cases h
  | some reference =>
      obtain ⟨id, name⟩ := reference
      rw [hr] at h
      obtain ⟨d, hd, rfl⟩ := Option.map_eq_some_iff.1 h
      exact ⟨name, rfl, hd, rfl⟩

/-- The resolutions of sites have numbers of their references. -/
theorem resolutionIds_sublist (sites : List Site) :
    ((sites.filterMap Site.resolution?).map Resolution.id).Sublist (referenceIds sites) := by
  induction sites with
  | nil => exact List.Sublist.refl _
  | cons s sites ih =>
      unfold referenceIds at ih ⊢
      cases hs : s.resolution? with
      | none =>
          rw [List.filterMap_cons_none hs]
          cases hr : s.reference? with
          | none =>
              rw [List.filterMap_cons_none hr]
              exact ih
          | some reference =>
              rw [List.filterMap_cons_some hr]
              exact ih.cons _
      | some r =>
          obtain ⟨name, hr, -, -⟩ := Site.reference?_of_resolution? hs
          rw [List.filterMap_cons_some hs, List.filterMap_cons_some hr]
          exact ih.cons_cons _

/-- The distances of a program, by number. -/
theorem Compiled.fst_distances (c : Compiled) :
    (c.resolutions.map fun r => (r.id, r.distance)).map Prod.fst =
      c.resolutions.map Resolution.id :=
  List.map_map

namespace Compiled.Ordered

variable {c : Compiled} {s s' : Supply}

/-- No reference is resolved twice. -/
theorem resolution_nodup (h : c.Ordered s s') : (c.resolutions.map Resolution.id).Nodup := by
  rw [h.resolutions]
  exact (resolutionIds_sublist _).nodup h.references.nodup

/-- A number tells the resolution. -/
theorem resolution_unique (h : c.Ordered s s') {r r' : Resolution} (hr : r ∈ c.resolutions)
    (hr' : r' ∈ c.resolutions) (hid : r.id = r'.id) : r = r' :=
  List.inj_on_of_nodup_map h.resolution_nodup hr hr' hid

/-- The number of a resolution was given away to the program. -/
theorem resolution_bounds (h : c.Ordered s s') {r : Resolution} (hr : r ∈ c.resolutions) :
    s.expr ≤ r.id ∧ r.id < s'.expr := by
  rw [h.resolutions] at hr
  exact h.references.bounds _ ((resolutionIds_sublist _).subset (List.mem_map_of_mem hr))

/-- The number of a reference tells its site. -/
theorem site_unique (h : c.Ordered s s') {site site' : Site} (hs : site ∈ c.program.sites)
    (hs' : site' ∈ c.program.sites) {id : ExprId} {name name' : String}
    (hr : site.reference? = some (id, name)) (hr' : site'.reference? = some (id, name')) :
    site = site' :=
  eq_of_nodup_filterMap h.references.nodup hs hs' hr hr' rfl

/-- The number of a reference was given away to the program. -/
theorem reference_bounds (h : c.Ordered s s') {site : Site} (hs : site ∈ c.program.sites)
    {id : ExprId} {name : String} (hr : site.reference? = some (id, name)) :
    s.expr ≤ id ∧ id < s'.expr :=
  h.references.bounds id
    (List.mem_map_of_mem (f := Prod.fst) (List.mem_filterMap.2 ⟨site, hs, hr⟩))

/-- The label of a routine was given away to the program. -/
theorem routine_bounds (h : c.Ordered s s') {ctx : Context} {r : Routine}
    (hr : ⟨ctx, .routine r⟩ ∈ c.program.sites) : s.routine ≤ r.label ∧ r.label < s'.routine :=
  h.routines.bounds r.label
    (List.mem_map_of_mem (f := Routine.label) (List.mem_filterMap.2 ⟨_, hr, rfl⟩))

/-- The label of a routine tells which it is and where it stands. -/
theorem routine_unique (h : c.Ordered s s') {ctx ctx' : Context} {r r' : Routine}
    (hr : ⟨ctx, .routine r⟩ ∈ c.program.sites) (hr' : ⟨ctx', .routine r'⟩ ∈ c.program.sites)
    (hlabel : r.label = r'.label) : ctx = ctx' ∧ r = r' := by
  have heq : (⟨ctx, .routine r⟩ : Site) = ⟨ctx', .routine r'⟩ :=
    eq_of_nodup_filterMap h.routines.nodup hr hr' rfl rfl hlabel
  cases heq
  exact ⟨rfl, rfl⟩

/-- **Each reference finds its distance**, and a reference to a global none. -/
theorem getElem?_insertAll (h : c.Ordered s s') {map : ResolutionMap} {site : Site}
    (hs : site ∈ c.program.sites) {id : ExprId} {name : String}
    (hr : site.reference? = some (id, name)) (hfree : map[id]? = none) :
    (insertAll map (c.resolutions.map fun r => (r.id, r.distance)))[id]? =
      site.ctx.distance? name := by
  cases hd : site.ctx.distance? name with
  | some d =>
      have hresolution : site.resolution? = some ⟨id, d, site.ctx.inRoutine⟩ := by
        simp only [Site.resolution?, hr, hd, Option.map_some]
      have hmem : (id, d) ∈ c.resolutions.map fun r => (r.id, r.distance) := by
        rw [h.resolutions]
        exact List.mem_map.2 ⟨_, List.mem_filterMap.2 ⟨site, hs, hresolution⟩, rfl⟩
      refine getElem?_insertAll_of_mem ?_ hmem map
      rw [c.fst_distances]
      exact h.resolution_nodup
  | none =>
      rw [getElem?_insertAll_of_not_mem ?_ map, hfree]
      rw [c.fst_distances, h.resolutions]
      intro hmem
      obtain ⟨r, hresolution, rfl⟩ := List.mem_map.1 hmem
      obtain ⟨site', hs', hr'⟩ := List.mem_filterMap.1 hresolution
      -- A resolution of this number would be that of this site.
      obtain ⟨name', hreference, hdistance, -⟩ := Site.reference?_of_resolution? hr'
      obtain rfl := h.site_unique hs hs' hr hreference
      rw [hr] at hreference
      cases hreference
      rw [hd] at hdistance
      cases hdistance

/-- Numbers that are no references of the program keep their distance. -/
theorem getElem?_insertAll_of_not_mem (h : c.Ordered s s') {id : ExprId}
    (hid : id ∉ referenceIds c.program.sites) (map : ResolutionMap) :
    (insertAll map (c.resolutions.map fun r => (r.id, r.distance)))[id]? = map[id]? := by
  refine Scriptlet.getElem?_insertAll_of_not_mem ?_ map
  rw [c.fst_distances, h.resolutions]
  exact fun hmem => hid ((resolutionIds_sublist _).subset hmem)

/-! ### Sites in order -/

/-- **If each reference finds its distance, the sites of the program are in order.** -/
theorem good (h : c.Ordered s s') {distances : ResolutionMap} {site : Site}
    (hs : site ∈ c.program.sites)
    (hd : ∀ id name, site.reference? = some (id, name) →
      distances[id]? = site.ctx.distance? name) : site.Good distances := by
  have hfaultless := h.faultless site hs
  have hplain := h.plain site hs
  obtain ⟨ctx, mention⟩ := site
  unfold Site.Faultless Site.findings at hfaultless
  cases mention with
  | read mark name =>
      refine ⟨?_, hd _ _ rfl⟩
      cases hown : ctx.inOwnInitializer name with
      | false => rfl
      | true =>
          simp only [hown, if_true] at hfaultless
          cases hfaultless _ (List.mem_append_left _ (List.mem_singleton.2 rfl))
  | write mark name => exact ⟨hplain name rfl, hd _ _ rfl⟩
  | receiver mark => exact hd _ _ rfl
  | ancestor mark =>
      refine ⟨?_, hd _ _ rfl⟩
      change ctx.classAround = .derived
      cases hclass : ctx.classAround with
      | derived => rfl
      | none =>
          simp only [hclass] at hfaultless
          cases hfaultless _ (List.mem_singleton.2 rfl)
      | plain =>
          simp only [hclass] at hfaultless
          cases hfaultless _ (List.mem_singleton.2 rfl)
  | parent mark name className =>
      refine ⟨?_, hd _ _ rfl⟩
      intro hname
      simp only [hname, if_true] at hfaultless
      cases hfaultless _ (List.mem_append_left _ (List.mem_singleton.2 rfl))
  | declared name span =>
      refine ⟨hplain name rfl, ?_⟩
      change ctx.clash name span = []
      unfold Context.clash at hfaultless ⊢
      split
      · rfl
      · rename_i hscopes
        simp only [hscopes] at hfaultless
        split
        · rename_i hdeclares
          rw [if_pos hdeclares] at hfaultless
          cases hfaultless _ (List.mem_singleton.2 rfl)
        · rfl
  | returned keyword =>
      change ctx.inRoutine = true
      cases hroutine : ctx.inRoutine with
      | true => rfl
      | false =>
          simp only [hroutine, Bool.false_eq_true, if_false] at hfaultless
          cases hfaultless _ (List.mem_singleton.2 rfl)
  | routine r => trivial

end Compiled.Ordered

end Scriptlet
