/-
**Sessions that write to a sink.**

A source is given to two sessions that differ in their outputs: one keeps what is printed as lines,
and the other writes it to a sink that takes so many bytes and no more.  If the sink has room for
all lines and their line ends, the sessions end alike, and the sink holds the lines.  If not, the
second session ends with an error at the first print statement for whose text, or line end, there is
no room, and the sink holds the lines in front of it, and its text if only the line end did not fit.

Main definitions:

* `Scriptlet.Session.on` — a session with another output;
* `Scriptlet.Session.prints` — **what a source prints in a session**;
* `Scriptlet.Session.Prints` — how a session takes a source that prints texts, with either output.

Main results:

* `Scriptlet.Session.mem_prints` — what a source prints is printed by its print statements;
* `Scriptlet.Session.step_prints` — **what a source prints decides what becomes of a sink**;
* `Scriptlet.Session.step_sink` — **a sink holds what is printed, as far as there is room**.
-/

import Scriptlet.Proofs.Session.Reached
import Scriptlet.Proofs.Session.Sink

set_option relaxedAutoImplicit false
set_option autoImplicit false

namespace Scriptlet

namespace Session

/-! ### What a source prints -/

/-- The session with another output. -/
def on (s : Session) (o : Output) : Session := { s with machine := s.machine.on o }

/-- **What a source prints in a session.**  A source that does not compile prints nothing. -/
def prints (mode : Mode) (fuel : Nat) (source : String) (s : Session) : List Printing :=
  match s.compile source with
  | (.ok c, s) =>
      allPrints (s.opened mode c).setting fuel c.program.declarations (s.opened mode c).machine
  | (.error _, _) => []

section Step

variable {mode : Mode} {fuel : Nat} {source : String} {s s₁ : Session} {c : Compiled}
  {errors : List CompileError} {o : Output}

theorem prints_of_ok (h : s.compile source = (.ok c, s₁)) :
    s.prints mode fuel source = allPrints (s₁.opened mode c).setting fuel c.program.declarations
      (s₁.opened mode c).machine := by
  rw [prints, h]

theorem prints_of_error (h : s.compile source = (.error errors, s₁)) :
    s.prints mode fuel source = [] := by
  rw [prints, h]

/-- **What a source prints is printed by its print statements.** -/
theorem mem_prints {p : Printing} :
    p ∈ s.prints mode fuel source ↔ ∃ c s₁ k f e v m', s.compile source = (.ok c, s₁) ∧
      Occurs (s₁.opened mode c).setting fuel c.program.declarations (s₁.opened mode c).machine k ∧
      k.fuel = f + 1 ∧ k.task = .perform (.print e p.span) ∧
      evaluate (s₁.opened mode c).setting f e k.machine = .done v m' ∧ p.text = v.text := by
  rcases hcompile : s.compile source with ⟨result, s₁⟩
  cases result with
  | ok c =>
      rw [prints_of_ok hcompile, mem_allPrints]
      constructor
      · rintro ⟨k, f, e, v, m', hk⟩
        exact ⟨c, s₁, k, f, e, v, m', rfl, hk⟩
      · rintro ⟨c', s', k, f, e, v, m', heq, hk⟩
        cases heq
        exact ⟨k, f, e, v, m', hk⟩
  | error errors =>
      rw [prints_of_error hcompile]
      refine iff_of_false nofun ?_
      rintro ⟨c', s', k, f, e, v, m', heq, -⟩
      cases heq

/-! ### Other outputs -/

theorem setting_on : (s.on o).setting = s.setting := rfl

theorem machine_on : (s.on o).machine = s.machine.on o := rfl

theorem compile_on {result : Except (List CompileError) Compiled}
    (h : s.compile source = (result, s₁)) : (s.on o).compile source = (result, s₁.on o) := by
  have hon : (s.on o).compile source = ((s.compile source).1, (s.compile source).2.on o) := rfl
  rw [hon, h]

theorem compile_machine {result : Except (List CompileError) Compiled}
    (h : s.compile source = (result, s₁)) : s₁.machine = s.machine := by
  rw [(compile_eq h).2]

theorem recordAll_on (rs : List Resolution) : (s.on o).recordAll rs = (s.recordAll rs).on o := by
  induction rs generalizing s with
  | nil => rfl
  | cons r rs ih => exact ih (s := s.record r)

theorem opened_on : (s.on o).opened mode c = (s.opened mode c).on o := by
  cases mode with
  | run => rfl
  | enter => exact recordAll_on c.resolutions

/-! ### Sessions that print -/

/-- **How a session takes a source that prints texts**: they are added to the lines that are kept,
or else poured into the sink, and if there is no room for one of them, that is an error at its
place. -/
structure Prints (mode : Mode) (fuel : Nat) (source : String) (s : Session) (ps : List Printing) :
    Prop where
  keeps : ∀ {lines ending s'}, s.machine.Keeps lines →
    s.step mode fuel source = some (ending, s') → s'.machine.Keeps (lines ++ ps.map Printing.text)
  fits : ∀ {lines capacity written taken}, s.machine.Keeps lines →
    pour capacity written ps = (taken, none) →
    (s.on (.sink capacity written)).step mode fuel source =
      (s.step mode fuel source).map fun r => (r.1, r.2.on (.sink capacity taken))
  full : ∀ {lines capacity written taken p}, s.machine.Keeps lines →
    pour capacity written ps = (taken, some p) →
    ∃ s', (s.on (.sink capacity written)).step mode fuel source =
        some (.failed ⟨.sinkFull, p.span⟩, s') ∧
      s'.machine.output = .sink capacity taken

namespace Prints

/-- A source that does not compile prints nothing. -/
theorem of_error (h : s.compile source = (.error errors, s₁)) : s.Prints mode fuel source [] where
  keeps := by
    intro lines ending s' hs hstep
    rw [step_of_error h] at hstep
    cases hstep
    rwa [List.map_nil, List.append_nil, compile_machine h]
  fits := by
    intro lines capacity written taken hs hpour
    cases hpour
    rw [step_of_error h, step_of_error (compile_on h)]
    rfl
  full := by
    intro lines capacity written taken p hs hpour
    cases hpour

/-- A source that compiles prints what the declarations of its program print. -/
theorem of_ok {ps : List Printing} (h : s.compile source = (.ok c, s₁))
    (hprints : (runDeclarations (s₁.opened mode c).setting fuel c.program.declarations).Prints
      (s₁.opened mode c).machine ps) : s.Prints mode fuel source ps := by
  have hkeeps : ∀ {lines}, s.machine.Keeps lines → (s₁.opened mode c).machine.Keeps lines := by
    intro lines hs
    rwa [opened_machine, compile_machine h]
  constructor
  case keeps =>
      intro lines ending s' hs hstep
      have hend := hprints.keeps (hkeeps hs)
      rw [step_of_ok h] at hstep
      generalize runDeclarations _ _ _ _ = x at hstep hend
      cases x with
      | done a m =>
          cases hstep
          exact hend
      | failed e m =>
          cases hstep
          exact hend
      | starved => cases hstep
  case fits =>
      intro lines capacity written taken hs hpour
      have hwrites := hprints.writes (hkeeps hs) capacity written
      rw [hpour] at hwrites
      rw [step_of_ok h, step_of_ok (compile_on h), opened_on, setting_on, machine_on]
      generalize runDeclarations _ _ _ ((s₁.opened mode c).machine.on _) = y at hwrites ⊢
      generalize runDeclarations _ _ _ (s₁.opened mode c).machine = x at hwrites ⊢
      cases hwrites
      cases x <;> rfl
  case full =>
      intro lines capacity written taken p hs hpour
      have hwrites := hprints.writes (hkeeps hs) capacity written
      rw [hpour] at hwrites
      rw [step_of_ok (compile_on h), opened_on, setting_on, machine_on]
      generalize runDeclarations _ _ _ ((s₁.opened mode c).machine.on _) = y at hwrites ⊢
      cases hwrites with
      | full hfull => exact ⟨_, rfl, hfull⟩

end Prints

/-- **What a source prints decides what becomes of a sink.** -/
theorem step_prints (mode : Mode) (fuel : Nat) (source : String) (s : Session) :
    s.Prints mode fuel source (s.prints mode fuel source) := by
  rcases hcompile : s.compile source with ⟨result, s₁⟩
  cases result with
  | ok c =>
      rw [prints_of_ok hcompile]
      exact .of_ok hcompile (runDeclarations_prints _ fuel _ _)
  | error errors =>
      rw [prints_of_error hcompile]
      exact .of_error hcompile

end Step

/-! ### Room for what is printed -/

/-- **A sink holds what is printed, as far as there is room.**  A source is taken by two fresh
sessions, one that keeps lines and one that writes to a sink.  If there is room for all lines with
their line ends, the sessions end alike and the sink holds them.  If not, the other session fails at
the first print statement for which there is no room, and the sink holds the lines in front of it
and, if only the line end did not fit, its text. -/
theorem step_sink {mode : Mode} {fuel : Nat} {source : String} {clock : Nat → Float}
    {ending : Ending} {s : Session} (capacity : Nat)
    (hstep : (start (.lines #[]) clock).step mode fuel source = some (ending, s)) :
    s.printed = ((start (.lines #[]) clock).prints mode fuel source).map Printing.text ∧
    ((String.join (s.printed.map (· ++ "\n"))).utf8ByteSize ≤ capacity →
      (start (.sink capacity "") clock).step mode fuel source =
        some (ending, s.on (.sink capacity (String.join (s.printed.map (· ++ "\n")))))) ∧
    (capacity < (String.join (s.printed.map (· ++ "\n"))).utf8ByteSize →
      ∃ before p after error s',
        (start (.lines #[]) clock).prints mode fuel source = before ++ p :: after ∧
        (Printing.join before).utf8ByteSize ≤ capacity ∧
        capacity < (Printing.join before).utf8ByteSize + p.text.utf8ByteSize + 1 ∧
        (start (.sink capacity "") clock).step mode fuel source = some (.failed error, s') ∧
        error.message = "failed to write output: sink full" ∧ error.span = p.span ∧
        s'.machine.output = .sink capacity (Printing.join before ++
          if (Printing.join before).utf8ByteSize + p.text.utf8ByteSize ≤ capacity
            then p.text else "")) := by
  have h := step_prints mode fuel source (start (.lines #[]) clock)
  have hstart : (start (.lines #[]) clock).machine.Keeps [] := rfl
  have hprinted : s.printed =
      ((start (.lines #[]) clock).prints mode fuel source).map Printing.text := by
    rw [printed, h.keeps hstart hstep]
    rfl
  generalize (start (.lines #[]) clock).prints mode fuel source = ps at h hprinted ⊢
  have hjoin : String.join (s.printed.map (· ++ "\n")) = Printing.join ps := by
    rw [hprinted, Printing.join, List.map_map]
    rfl
  rw [hjoin]
  refine ⟨hprinted, fun hroom => ?_, fun hroom => ?_⟩
  · have hpour : pour capacity "" ps = ("" ++ Printing.join ps, none) :=
      pour_of_le (by rwa [String.utf8ByteSize_empty, Nat.zero_add])
    have hfits := h.fits hstart hpour
    rw [hstep, String.empty_append] at hfits
    exact hfits
  · obtain ⟨before, p, after, rfl, hbefore, hfull, hpour⟩ :=
      @pour_of_lt capacity "" ps (Nat.zero_le _) (by rwa [String.utf8ByteSize_empty, Nat.zero_add])
    rw [String.empty_append] at hbefore hfull hpour
    obtain ⟨s', hsink, houtput⟩ := h.full hstart hpour
    exact ⟨before, p, after, ⟨.sinkFull, p.span⟩, s', rfl, hbefore, hfull, hsink, rfl, rfl, houtput⟩

/-- A source that prints an empty line, two lines inside calls, and one more. -/
def fourLines : String :=
  "fun f(s) \x7b print s; \x7d print ''; \x7b f('ab'); \x7d f('cd'); print 'e';"

/-- A sink with room for all lines, and one that is full inside a call. -/
theorem step_sink_inside_call :
    ∃ s, (start (.lines #[]) fun _ => 0).step .run 40 fourLines = some (.success, s) ∧
      s.printed = ["", "ab", "cd", "e"] ∧
      (start (.sink 9 "") fun _ => 0).step .run 40 fourLines =
        some (.success, s.on (.sink 9 "\nab\ncd\ne\n")) ∧
      ∃ before p after error s',
        [⟨"", ⟨22, 9, 1⟩⟩, ⟨"ab", ⟨11, 8, 1⟩⟩, ⟨"cd", ⟨11, 8, 1⟩⟩, ⟨"e", ⟨54, 10, 1⟩⟩] =
          before ++ p :: after ∧
        (Printing.join before).utf8ByteSize ≤ 6 ∧
        6 < (Printing.join before).utf8ByteSize + p.text.utf8ByteSize + 1 ∧
        (start (.sink 6 "") fun _ => 0).step .run 40 fourLines = some (.failed error, s') ∧
        error.message = "failed to write output: sink full" ∧ error.span = p.span ∧
        s'.machine.output = .sink 6 (Printing.join before ++
          if (Printing.join before).utf8ByteSize + p.text.utf8ByteSize ≤ 6
            then p.text else "") := by
  have hlines :
      ((start (.lines #[]) fun _ => 0).step .run 40 fourLines).map (fun r => (r.1, r.2.printed)) =
        some (.success, ["", "ab", "cd", "e"]) := by
    decide +kernel
  have hprints :
      (start (.lines #[]) fun _ => 0).prints .run 40 fourLines =
        [⟨"", ⟨22, 9, 1⟩⟩, ⟨"ab", ⟨11, 8, 1⟩⟩, ⟨"cd", ⟨11, 8, 1⟩⟩, ⟨"e", ⟨54, 10, 1⟩⟩] := by
    decide +kernel
  obtain ⟨⟨ending, s⟩, hstep, hresult⟩ := Option.map_eq_some_iff.1 hlines
  obtain ⟨rfl, hprinted⟩ : ending = .success ∧ s.printed = ["", "ab", "cd", "e"] :=
    Prod.mk.inj hresult
  have hwide := (step_sink 9 hstep).2.1
  have hnarrow := (step_sink 6 hstep).2.2
  rw [hprinted] at hwide hnarrow
  rw [hprints] at hnarrow
  exact ⟨s, hstep, hprinted, hwide (by decide +kernel), hnarrow (by decide +kernel)⟩

/-- The text of the third line fits, but its line end does not. -/
example :
    ((start (.sink 6 "") fun _ => 0).step .run 40 fourLines).map
      (fun r => (r.1, r.2.machine.output.written)) =
    some (.failed ⟨.sinkFull, ⟨11, 8, 1⟩⟩, "\nab\ncd") := by
  decide +kernel

end Session

end Scriptlet
