/-
**Two sources in one, and one after the other.**

It makes no difference whether a source is cut in two between declarations.  The second part
compiles as it would alone, but for its places and numbers, and a session that takes the whole does
what a session does that takes the parts one after the other.  The declarations of the second part
run on a machine that knows routines of both, so they may stop at an error in either text.  The text
in front of the second part, be it the first part, nothing, or blank lines, moves its own errors and
no others.

Main definitions:

* `Scriptlet.SecondEnding` — how the second of two sources ends, apart from where it stands;
* `Scriptlet.Lexical.answer?`, `Scriptlet.Session.answer?` — the answer of a machine to
  declarations, and of a session to a source;
* `Scriptlet.Blank` — a source without tokens;
* `Scriptlet.Compiled.distances` — the resolutions of a program as a map;
* `Scriptlet.CompileError.Behind` — an error of a source behind another, and of the source alone;
* `Scriptlet.Joins` — **what is true of two sources in one**.

Main results:

* `Scriptlet.Lexical.answer?_behind` — declarations run alike behind every text, but for the places
  of their own errors;
* `Scriptlet.Compiled.distances_append` — the maps of two programs are united;
* `Scriptlet.joins_of_startsAfresh` — **cutting a source between declarations changes nothing**.
-/

import Scriptlet.Proofs.Joined.Compile
import Scriptlet.Proofs.Joined.Evaluation
import Scriptlet.Proofs.Session.Transcript

set_option relaxedAutoImplicit false
set_option autoImplicit false

namespace Scriptlet

/-! ### Endings -/

/-- How the second of two sources ends, apart from where it stands. -/
inductive SecondEnding
  /-- Without an error. -/
  | success
  /-- With an error in the text of the first source, a routine of which it has called. -/
  | inFirst (e : RuntimeError)
  /-- With an error of its own, at a place counted from its beginning. -/
  | own (e : RuntimeError)

namespace SecondEnding

/-- How the source ends behind a text: the place of an error of its own moves. -/
def behind (text : List Char) : SecondEnding → Ending
  | .success => .success
  | .inFirst e => .failed e
  | .own e => .failed (e.relocate (.behind text 0 0))

/-- What is answered behind a text: how the source ends there, and what has been printed by then. -/
def answer (text : List Char) (r : SecondEnding × Output) : Ending × Output :=
  (r.1.behind text, r.2)

/-- The ending that an error behind a text is. -/
def ofError (text : List Char) (e : RuntimeError) : SecondEnding :=
  if e.span.offset < byteLength text then .inFirst e else .own (e.relocate (.instead text []))

theorem behind_ofError (text text' : List Char) (e : RuntimeError) :
    (ofError text e).behind text' = .failed (e.relocate (.instead text text')) := by
  unfold ofError
  split <;> rename_i h
  · simp [behind, RuntimeError.relocate, Relocation.instead, h]
  · simp [behind, RuntimeError.relocate, Relocation.instead, Relocation.behind, byteLength_nil, h]

end SecondEnding

/-! ### Runs -/

/-- Programs are left alone by relocations that leave their sources alone. -/
theorem compile_fixed {source : String} {s s₁ : Supply} {c : Compiled}
    (h : compile source s = (.ok c, s₁)) {φ : Relocation}
    (hφ : φ.comp (.clamp (byteLength source.toList)) = .clamp (byteLength source.toList)) :
    Decl.allRelocate φ c.program.declarations = c.program.declarations := by
  have hclamp : Decl.allRelocate (.clamp (byteLength source.toList)) c.program.declarations =
      c.program.declarations :=
    congrArg (fun c : Compiled => c.program.declarations) (compile_clamp h)
  calc Decl.allRelocate φ c.program.declarations
      = Decl.allRelocate φ (Decl.allRelocate (.clamp (byteLength source.toList))
          c.program.declarations) := by rw [hclamp]
    _ = c.program.declarations := by rw [Decl.allRelocate_comp, hφ, hclamp]

namespace Lexical

/-- A machine on which a program has run is left alone by relocations that leave the program
alone. -/
theorem relocate_of_runDeclarations {φ : Relocation} (hφ : Function.Injective φ.routine)
    {clock : Nat → Float} {fuel : Nat} {ds : List Decl} {output : Output} {n : Machine}
    (hds : Decl.allRelocate φ ds = ds)
    (hrun : runDeclarations clock fuel ds (.initial output) = .done () n) : n.relocate φ = n := by
  have hmoves := runDeclarations_moves hφ clock fuel ds (.initial output)
  rw [hds, Machine.initial_relocate, hrun] at hmoves
  exact ((Outcome.done.inj hmoves).2).symm

theorem runDeclarations_of_interpret {clock : Nat → Float} {fuel : Nat} {p : Program}
    {n n' : Machine} (h : interpret clock fuel p n = some (.success, n')) :
    runDeclarations clock fuel p.declarations n = .done () n' := by
  unfold interpret at h
  cases hrun : runDeclarations clock fuel p.declarations n with
  | done _ m =>
      rw [hrun] at h
      cases h
      rfl
  | failed e m =>
      rw [hrun] at h
      cases h
  | starved =>
      rw [hrun] at h
      cases h

/-- What a machine that looks names up answers to declarations: how they end, and what has been
printed by then. -/
def answer? (clock : Nat → Float) (fuel : Nat) (ds : List Decl) (n : Machine) :
    Option (Ending × Output) :=
  (interpret clock fuel ⟨ds⟩ n).map fun x => (x.1, x.2.output)

/-- Behind declarations that run without error, others answer as they do on the machine that is
left. -/
theorem answer?_append {clock : Nat → Float} {fuel : Nat} {ds : List Decl} {n n' : Machine}
    (hrun : runDeclarations clock fuel ds n = .done () n') (others : List Decl) :
    answer? clock fuel (ds ++ others) n = answer? clock fuel others n' := by
  unfold answer? interpret
  simp only [runDeclarations_append, hrun]
  cases runDeclarations clock fuel others n' <;> rfl

/-- **Declarations run alike behind every text**, but for the places of their own errors, on a
machine of which all that stands behind one text could stand behind any other. -/
theorem answer?_behind {n : Machine} {text : List Char}
    (hn : ∀ text', n.relocate (.instead text text') = n) (clock : Nat → Float) (fuel : Nat)
    (ds : List Decl) : ∃ r : Option (SecondEnding × Output), ∀ text',
      answer? clock fuel (Decl.allRelocate (.behind text' 0 0) ds) n =
        r.map (SecondEnding.answer text') := by
  -- what runs behind the one text is moved behind each of the others
  have hmoves : ∀ text',
      runDeclarations clock fuel (Decl.allRelocate (.behind text' 0 0) ds) n =
        (runDeclarations clock fuel (Decl.allRelocate (.behind text 0 0) ds) n).relocate
          (.instead text text') id := by
    intro text'
    have hmoved := runDeclarations_moves (φ := .instead text text') (fun _ _ h => h) clock fuel
      (Decl.allRelocate (.behind text 0 0) ds) n
    rwa [hn, Decl.allRelocate_comp, Relocation.instead_comp_behind] at hmoved
  generalize runDeclarations clock fuel (Decl.allRelocate (.behind text 0 0) ds) n = o at hmoves
  simp only [answer?, interpret, hmoves]
  cases o with
  | done _ m => exact ⟨some (.success, m.output), fun _ => rfl⟩
  | failed e m =>
      refine ⟨some (.ofError text e, m.output), fun text' => ?_⟩
      rw [Option.map_some, SecondEnding.answer, SecondEnding.behind_ofError]
      rfl
  | starved => exact ⟨none, fun _ => rfl⟩

end Lexical

/-! ### Resolutions -/

/-- The resolutions of a program as a map. -/
def Compiled.distances (c : Compiled) : ResolutionMap :=
  insertAll ∅ (c.resolutions.map fun r => (r.id, r.distance))

/-- Numbers that have been shifted find the distances that they found before. -/
theorem getElem?_insertAll_shift {map map' : ResolutionMap} {id shift : ExprId}
    (h : map[id + shift]? = map'[id]?) (ds : List (ExprId × Nat)) :
    (insertAll map (ds.map fun d => (d.1 + shift, d.2)))[id + shift]? =
      (insertAll map' ds)[id]? := by
  induction ds generalizing map map' with
  | nil => exact h
  | cons d ds ih =>
      rw [List.map_cons, insertAll, insertAll, List.foldl_cons, List.foldl_cons]
      refine ih ?_
      rw [Std.TreeMap.getElem?_insert, Std.TreeMap.getElem?_insert, h]
      simp only [Nat.compare_eq_eq, Nat.add_right_cancel_iff]

/-- **The maps of two programs are united**: the first has the numbers that were given away to it,
and the second those behind them. -/
theorem Compiled.distances_append {a : Compiled} {s s₁ : Supply} (ha : a.Ordered s s₁)
    (b : Compiled) (text : List Char) (routines : Nat) (id : ExprId) :
    (a.append (b.relocate (.behind text s₁.expr routines))).distances[id]? =
      if id < s₁.expr then a.distances[id]? else b.distances[id - s₁.expr]? := by
  have hshift : ((a.append (b.relocate (.behind text s₁.expr routines))).resolutions.map
      fun r => (r.id, r.distance)) = (a.resolutions.map fun r => (r.id, r.distance)) ++
        (b.resolutions.map fun r => (r.id, r.distance)).map fun d => (d.1 + s₁.expr, d.2) := by
    simp only [append, relocate, List.map_append, List.map_map]
    rfl
  rw [distances, hshift, insertAll, List.foldl_append]
  split
  · rename_i hlt
    refine getElem?_insertAll_of_not_mem (fun hmem => ?_) _
    simp only [List.map_map, List.mem_map, Function.comp_apply] at hmem
    obtain ⟨r, -, hr⟩ := hmem
    exact Nat.not_lt.2 (hr ▸ Nat.le_add_left _ _) hlt
  · rename_i hle
    obtain ⟨n, rfl⟩ := Nat.exists_eq_add_of_le' (Nat.le_of_not_lt hle)
    rw [Nat.add_sub_cancel]
    refine getElem?_insertAll_shift ?_ _
    -- the numbers of the first program are all smaller
    rw [getElem?_insertAll_of_not_mem (fun hmem => ?_)]
    · simp
    · rw [List.map_map, ha.resolutions] at hmem
      have hbounds := ha.references.bounds _ ((resolutionIds_sublist _).subset hmem)
      omega

/-! ### Sessions -/

namespace Session

/-- What a session answers to a source: how it ends, and what has been printed by then. -/
def answer? (s : Session) (mode : Mode) (fuel : Nat) (source : String) :
    Option (Ending × Output) :=
  (s.step mode fuel source).map fun x => (x.1, x.2.machine.output)

/-- A session answers as the machine that looks names up. -/
theorem Mirrors.answer?_eq {programs : List Compiled} {s : Session} {n : Machine} {source : String}
    {c : Compiled} (h : Mirrors programs s n)
    (hc : (Scriptlet.compile source s.supply).1 = .ok c) (mode : Mode) (fuel : Nat) :
    s.answer? mode fuel source = Lexical.answer? s.clock fuel c.program.declarations n := by
  have hstep := h.step (compile_of_compile (Prod.ext hc rfl)) mode fuel
  unfold answer? Lexical.answer?
  generalize s.step mode fuel source = x at hstep ⊢
  generalize Lexical.interpret s.clock fuel c.program n = y at hstep ⊢
  cases hstep with
  | none => rfl
  | some hxy => rw [Option.map_some, Option.map_some, hxy.1, hxy.2.1.output_eq]

end Session

/-! ### Blank sources -/

/-- A source without tokens: blanks, empty lines and comments. -/
def Blank (source : String) : Prop := ∃ finish, scan source = .ok [finish]

/-- A blank source compiles to nothing and uses no numbers up. -/
theorem Blank.compile {source : String} (h : Blank source) (s : Supply) :
    Scriptlet.compile source s = (.ok ⟨⟨[]⟩, []⟩, s) := by
  obtain ⟨finish, hscan⟩ := h
  obtain ⟨inner, hinner, -⟩ := scan_inner hscan
  obtain ⟨rfl, hfinish⟩ := List.append_inj' ((List.nil_append _).trans hinner) rfl
  obtain rfl := (List.cons.inj hfinish).1
  exact compile_of_parse hscan rfl

example : Blank "// note\n \t/* rest */" := ⟨.finish ⟨20, 0, 2⟩, by decide +kernel⟩

/-! ### Two sources in one -/

/-- An error of a source behind another: the error of the source alone, with the same words, at the
place that is moved by the length and the lines of the other. -/
structure CompileError.Behind (A : String) (e e' : CompileError) : Prop where
  moved : e = e'.relocate (.behind (A.toList ++ ['\n']) 0 0)
  message : e.message = e'.message
  subject : e.subject = e'.subject
  span : e.span = ⟨e'.span.offset + (A.utf8ByteSize + 1), e'.span.len,
    e'.span.line + (A.toList.count '\n' + 1)⟩

/-- **What is true of two sources in one**, the first of which compiles. -/
structure Joins (A B : String) : Prop where
  /-- The two compile in one if and only if the second compiles alone. -/
  compiles : Compiles (A ++ "\n" ++ B) ↔ Compiles B
  /-- Then the declarations are those of the first, followed by those of the second at their new
  places and with new numbers, and the resolutions are united. -/
  accepted : ∀ {s s₁ : Supply} {a b : Compiled}, compile A s = (.ok a, s₁) →
    (compile B .full).1 = .ok b →
    ∃ c, (compile (A ++ "\n" ++ B) s).1 = .ok c ∧
      c.program.declarations = a.program.declarations ++
        Decl.allRelocate (.behind (A.toList ++ ['\n']) s₁.expr s₁.routine)
          b.program.declarations ∧
      ∀ id : ExprId, c.distances[id]? =
        if id < s₁.expr then a.distances[id]? else b.distances[id - s₁.expr]?
  /-- Otherwise the errors are those of the second, at their new places. -/
  rejected : ∀ {s : Supply} {errors : List CompileError}, (compile B .full).1 = .error errors →
    ∃ errors', (compile (A ++ "\n" ++ B) s).1 = .error errors' ∧
      List.Forall₂ (CompileError.Behind A) errors' errors
  /-- If the first runs without error and the second compiles, the two in one print the same and end
  in the same way as one after the other.  An error in the text of the first stays in its place.  An
  error in the text of the second moves behind the first, just as it moves behind a blank source. -/
  runs : ∀ {output : Output} {clock : Nat → Float} {fuel : Nat} {mode : Session.Mode}
    {s : Session}, (Session.start output clock).step mode fuel A = some (.success, s) →
    Compiles B → ∃ r : Option (SecondEnding × Output), ∀ mode' : Session.Mode,
      (Session.start output clock).answer? mode' fuel (A ++ "\n" ++ B) =
        r.map (SecondEnding.answer (A.toList ++ ['\n'])) ∧
      s.answer? mode' fuel B = r.map (SecondEnding.answer []) ∧
      ∀ blank, Blank blank → s.answer? mode' fuel (blank ++ "\n" ++ B) =
        r.map (SecondEnding.answer (blank.toList ++ ['\n']))

theorem CompileError.behind (A : String) (exprs routines : Nat) (e : CompileError) :
    Behind A (e.relocate (.behind (A.toList ++ ['\n']) exprs routines)) e := by
  have hbytes : byteLength (A.toList ++ ['\n']) = A.utf8ByteSize + 1 := by
    rw [byteLength_append, ← Lexeme.utf8ByteSize_ofList, String.ofList_toList]
    rfl
  refine ⟨by cases e <;> rfl, e.message_relocate _, e.subject_relocate _, ?_⟩
  rw [span_relocate, hbytes, List.count_append]
  rfl

theorem CompileError.all_behind (A : String) (exprs routines : Nat) (errors : List CompileError) :
    List.Forall₂ (Behind A)
      (errors.map (CompileError.relocate (.behind (A.toList ++ ['\n']) exprs routines)))
      errors := by
  induction errors with
  | nil => exact .nil
  | cons e errors ih => exact .cons (behind A exprs routines e) ih

section Joined

variable {A B : String} {s s₁ : Supply} {a : Compiled}

/-- The second source is compiled with numbers of its own, which are then shifted. -/
theorem compile_joined_full (hA : compile A s = (.ok a, s₁)) (hB : StartsAfresh B) :
    (compile (A ++ "\n" ++ B) s).1 =
      ((compile B .full).1.map fun b =>
        a.append (b.relocate (.behind (A.toList ++ ['\n']) s₁.expr s₁.routine))).mapError
          (List.map (CompileError.relocate
            (.behind (A.toList ++ ['\n']) s₁.expr s₁.routine))) := by
  refine compile_joined s₁.expr s₁.routine ?_ hB
  rw [hA]
  simp only [Supply.full, Nat.zero_add]

theorem compiles_joined (hA : Compiles A) (hB : StartsAfresh B) :
    Compiles (A ++ "\n" ++ B) ↔ Compiles B := by
  obtain ⟨a, s₁, ha⟩ := hA.compile .full
  have hjoined := compile_joined_full ha hB
  unfold Compiles
  rw [hjoined]
  cases (compile B .full).1 with
  | ok b => exact ⟨fun _ => ⟨b, rfl⟩, fun _ => ⟨_, rfl⟩⟩
  | error errors => exact ⟨nofun, nofun⟩

/-- A session that takes two sources in one answers as a session does that takes one after the
other, with blank sources in front of the second or without. -/
theorem Session.answer?_joined (hB : StartsAfresh B) {output : Output} {clock : Nat → Float}
    {fuel : Nat} {mode : Mode} {t : Session} (hA : Compiles A)
    (hstep : (start output clock).step mode fuel A = some (.success, t))
    (hcompile : Compiles B) : ∃ r : Option (SecondEnding × Output), ∀ mode' : Mode,
      (start output clock).answer? mode' fuel (A ++ "\n" ++ B) =
        r.map (SecondEnding.answer (A.toList ++ ['\n'])) ∧
      t.answer? mode' fuel B = r.map (SecondEnding.answer []) ∧
      ∀ blank, Blank blank → t.answer? mode' fuel (blank ++ "\n" ++ B) =
        r.map (SecondEnding.answer (blank.toList ++ ['\n'])) := by
  have hstart : Mirrors [] (start output clock) (.initial output) := .start output clock .full
  obtain ⟨a, s₁, ha⟩ := hA.compile .full
  have hfirst := hstart.step (compile_of_compile ha) mode fuel
  rw [hstep] at hfirst
  generalize hinterpret : Lexical.interpret _ fuel a.program _ = first at hfirst
  obtain ⟨⟨ending, n⟩, rfl, rfl, hmirrors, hsupply, hclock⟩ : ∃ first', first = some first' ∧
      Ending.success = first'.1 ∧ Mirrors [a] t first'.2 ∧ t.supply = s₁ ∧ t.clock = clock := by
    cases hfirst with
    | some h => exact ⟨_, rfl, h⟩
  have hrun := Lexical.runDeclarations_of_interpret hinterpret
  -- the second source takes over the numbers that the first has left
  obtain ⟨b, s₂, hb⟩ := hcompile.compile s₁
  have hlt : byteLength A.toList < byteLength (A.toList ++ ['\n']) := by
    rw [byteLength_append]
    exact Nat.lt_add_of_pos_right (by decide)
  have hfixed : ∀ text', n.relocate (.instead (A.toList ++ ['\n']) text') = n := fun text' =>
    Lexical.relocate_of_runDeclarations (fun _ _ h => h)
      (compile_fixed ha (Relocation.instead_comp_clamp hlt text')) hrun
  obtain ⟨r, hr⟩ := Lexical.answer?_behind hfixed clock fuel b.program.declarations
  refine ⟨r, fun mode' => ⟨?whole, ?alone, fun blank hblank => ?padded⟩⟩
  case whole =>
    have hjoined := compile_joined 0 0 ha hB
    rw [hb] at hjoined
    rw [hstart.answer?_eq hjoined, ← hr]
    exact Lexical.answer?_append hrun _
  case alone =>
    rw [hmirrors.answer?_eq (by rw [hsupply, hb]), hclock, ← hr, Relocation.behind_nil,
      Decl.allRelocate_id]
  case padded =>
    have hjoined := compile_joined 0 0 (hblank.compile s₁) hB
    rw [hb] at hjoined
    rw [hmirrors.answer?_eq (hsupply ▸ hjoined), hclock, ← hr]
    rfl

/-- **Cutting a source between declarations changes nothing.** -/
theorem joins_of_startsAfresh (hA : Compiles A) (hB : StartsAfresh B) : Joins A B where
  compiles := compiles_joined hA hB
  accepted := by
    intro s s₁ a b ha hb
    have hjoined := compile_joined_full ha hB
    rw [hb] at hjoined
    exact ⟨_, hjoined, rfl, a.distances_append (compile_ordered ha) b _ s₁.routine⟩
  rejected := by
    intro s errors hb
    obtain ⟨a, s₁, ha⟩ := hA.compile s
    have hjoined := compile_joined_full ha hB
    rw [hb] at hjoined
    exact ⟨_, hjoined, CompileError.all_behind A _ _ errors⟩
  runs := fun hstep hcompile => Session.answer?_joined hB hA hstep hcompile

/-- A function, and two lines that call it: the error in the second line stands there alone at byte
23 of line 2, and behind the function at byte 50 of line 3. -/
theorem joins_function_lines :
    (Compiles "fun f(x) \x7b return 6 / x; \x7d" ∧ StartsAfresh "print f(2);\nprint 'é' - 1;") ∧
    Joins "fun f(x) \x7b return 6 / x; \x7d" "print f(2);\nprint 'é' - 1;" ∧
    ((Session.start (.lines #[]) fun _ => 0).transcript 40
        [(.run, "fun f(x) \x7b return 6 / x; \x7d\nprint f(2);\nprint 'é' - 1;")]).map
        (fun answers => answers.map fun answer => (answer.1, answer.2.toList)) =
      some [(.failed ⟨.operandsNotNumbers, ⟨50, 1, 3⟩⟩, ["3"])] ∧
    ((Session.start (.lines #[]) fun _ => 0).transcript 40
        [(.run, "fun f(x) \x7b return 6 / x; \x7d"), (.enter, "print f(2);\nprint 'é' - 1;")]).map
        (fun answers => answers.map fun answer => (answer.1, answer.2.toList)) =
      some [(.success, []), (.failed ⟨.operandsNotNumbers, ⟨23, 1, 2⟩⟩, ["3"])] := by
  have hparts : Compiles "fun f(x) \x7b return 6 / x; \x7d" ∧
      StartsAfresh "print f(2);\nprint 'é' - 1;" := by
    decide +kernel
  exact ⟨hparts, joins_of_startsAfresh hparts.1 hparts.2, by decide +kernel, by decide +kernel⟩

end Joined

end Scriptlet
