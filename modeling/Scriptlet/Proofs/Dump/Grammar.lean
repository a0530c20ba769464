/-
**The grammar of JSON, and that no text has two values.**

A JSON text is told by productions: blanks, the literal words, numbers, strings with their escapes,
arrays and objects.  A production relates a text, the value with which it begins, and the text behind
that value.  It says nothing about how a value is laid out.

The first character tells what kind of value follows, a string ends at its first quote that is not
escaped, and a number goes on as long as it can.  So a text has at most one value.

Main definitions:

* `Scriptlet.Json.IsNumber` — the texts of numbers;
* `Scriptlet.Json.Letters` — a string behind its opening quote;
* `Scriptlet.Json.Spells` — **a text that begins with a value**.

Main results:

* `Scriptlet.Json.Letters.unique` — a string is determined by its text;
* `Scriptlet.Json.Spells.unique` — **a text has at most one value.**
-/

import Scriptlet.Json

set_option relaxedAutoImplicit false
set_option autoImplicit false

namespace Scriptlet.Json

/-! ### Productions -/

/-- The characters that may stand between the parts of a value. -/
def isBlank (c : Char) : Bool := c == ' ' || c == '\t' || c == '\n' || c == '\r'

/-- Blanks, and the text behind them. -/
inductive Blanks : List Char → List Char → Prop
  | nil (ts : List Char) : Blanks ts ts
  | cons {c : Char} {ts us : List Char} : isBlank c = true → Blanks ts us → Blanks (c :: ts) us

/-- Digits, at least one. -/
structure Digits (ds : List Char) : Prop where
  ne_nil : ds ≠ []
  isDigit : ∀ d ∈ ds, d.isDigit = true

/-- A whole number: a zero, or digits of which the first is none. -/
inductive Whole : List Char → Prop
  | zero : Whole ['0']
  | digits {d : Char} {ds : List Char} : d ≠ '0' → Digits (d :: ds) → Whole (d :: ds)

/-- The places of a number behind its point, or nothing. -/
inductive Places : List Char → Prop
  | none : Places []
  | some {ds : List Char} : Digits ds → Places ('.' :: ds)

/-- The exponent of a number, or nothing. -/
inductive Exponent : List Char → Prop
  | none : Exponent []
  | unsigned {e : Char} {ds : List Char} : e = 'e' ∨ e = 'E' → Digits ds → Exponent (e :: ds)
  | signed {e s : Char} {ds : List Char} : e = 'e' ∨ e = 'E' → s = '+' ∨ s = '-' → Digits ds →
      Exponent (e :: s :: ds)

/-- The texts of numbers without sign. -/
inductive Unsigned : List Char → Prop
  | mk {whole places exponent : List Char} : Whole whole → Places places → Exponent exponent →
      Unsigned (whole ++ places ++ exponent)

/-- **The texts of numbers.** -/
inductive IsNumber : List Char → Prop
  | plain {cs : List Char} : Unsigned cs → IsNumber cs
  | negative {cs : List Char} : Unsigned cs → IsNumber ('-' :: cs)

/-- The character for which a short escape stands. -/
def shortEscape? : Char → Option Char
  | '"' => some '"'
  | '\\' => some '\\'
  | '/' => some '/'
  | 'b' => some '\x08'
  | 'f' => some '\x0c'
  | 'n' => some '\n'
  | 'r' => some '\r'
  | 't' => some '\t'
  | _ => none

/-- The value of a hexadecimal digit. -/
def hexValue? (c : Char) : Option Nat :=
  if c.isDigit then some (c.toNat - 48)
  else if 'a' ≤ c ∧ c ≤ 'f' then some (c.toNat - 87)
  else if 'A' ≤ c ∧ c ≤ 'F' then some (c.toNat - 55)
  else none

/-- Four hexadecimal digits that name a character. -/
inductive Code : List Char → Char → Prop
  | mk {a b c d : Char} {w x y z : Nat} : hexValue? a = some w → hexValue? b = some x →
      hexValue? c = some y → hexValue? d = some z →
      (((16 * w + x) * 16 + y) * 16 + z).isValidChar →
      Code [a, b, c, d] (.ofNat (((16 * w + x) * 16 + y) * 16 + z))

/-- **A string behind its opening quote**: its text, its characters, and the text behind its closing
quote.  Pairs of codes for a single character are left out. -/
inductive Letters : List Char → List Char → List Char → Prop
  | close (rest : List Char) : Letters ('"' :: rest) [] rest
  | plain {c : Char} {ts cs rest : List Char} : 32 ≤ c.toNat → c ≠ '"' → c ≠ '\\' →
      Letters ts cs rest → Letters (c :: ts) (c :: cs) rest
  | short {e c : Char} {ts cs rest : List Char} : shortEscape? e = some c → Letters ts cs rest →
      Letters ('\\' :: e :: ts) (c :: cs) rest
  | code {ds ts cs rest : List Char} {c : Char} : Code ds c → Letters ts cs rest →
      Letters ('\\' :: 'u' :: (ds ++ ts)) (c :: cs) rest

mutual

/-- **A text that begins with a value**, and the text behind it. -/
inductive Spells : List Char → Json → List Char → Prop
  | null (rest : List Char) : Spells ('n' :: 'u' :: 'l' :: 'l' :: rest) .null rest
  | true (rest : List Char) : Spells ('t' :: 'r' :: 'u' :: 'e' :: rest) (.bool true) rest
  | false (rest : List Char) :
      Spells ('f' :: 'a' :: 'l' :: 's' :: 'e' :: rest) (.bool false) rest
  | number {cs : List Char} (rest : List Char) : IsNumber cs →
      Spells (cs ++ rest) (.number (.ofList cs)) rest
  | string {ts cs rest : List Char} : Letters ts cs rest →
      Spells ('"' :: ts) (.string (.ofList cs)) rest
  | emptyArray {ts rest : List Char} : Blanks ts (']' :: rest) → Spells ('[' :: ts) (.array []) rest
  | array {ts rest : List Char} {items : List Json} : Items ts items rest →
      Spells ('[' :: ts) (.array items) rest
  | emptyObject {ts rest : List Char} : Blanks ts ('}' :: rest) →
      Spells ('{' :: ts) (.object []) rest
  | object {ts rest : List Char} {members : List (String × Json)} : Members ts members rest →
      Spells ('{' :: ts) (.object members) rest

/-- A value with blanks around it. -/
inductive Element : List Char → Json → List Char → Prop
  | mk {ts us vs ws : List Char} {j : Json} : Blanks ts us → Spells us j vs → Blanks vs ws →
      Element ts j ws

/-- The items of an array with commas between them, at least one, and the closing bracket. -/
inductive Items : List Char → List Json → List Char → Prop
  | last {ts rest : List Char} {j : Json} : Element ts j (']' :: rest) → Items ts [j] rest
  | more {ts us rest : List Char} {j : Json} {js : List Json} : Element ts j (',' :: us) →
      Items us js rest → Items ts (j :: js) rest

/-- A name and its value with a colon between them. -/
inductive Member : List Char → String × Json → List Char → Prop
  | mk {ts us vs ws xs name : List Char} {j : Json} : Blanks ts ('"' :: us) →
      Letters us name vs → Blanks vs (':' :: ws) → Element ws j xs →
      Member ts (.ofList name, j) xs

/-- The members of an object with commas between them, at least one, and the closing brace. -/
inductive Members : List Char → List (String × Json) → List Char → Prop
  | last {ts rest : List Char} {m : String × Json} : Member ts m ('}' :: rest) →
      Members ts [m] rest
  | more {ts us rest : List Char} {m : String × Json} {ms : List (String × Json)} :
      Member ts m (',' :: us) → Members us ms rest → Members ts (m :: ms) rest

end

/-! ### Blanks and numbers -/

/-- A text that does not begin with a blank. -/
def Sharp (ts : List Char) : Prop := ∀ c ∈ ts.head?, isBlank c = false

theorem sharp_cons {c : Char} {ts : List Char} (h : isBlank c = false) : Sharp (c :: ts) := by
  intro d hd
  cases Option.mem_some.1 hd
  exact h

theorem Blanks.unique {ts us vs : List Char} (h : Blanks ts us) (h' : Blanks ts vs) (hu : Sharp us)
    (hv : Sharp vs) : us = vs := by
  induction h with
  | nil ts =>
      cases h' with
      | nil => rfl
      | cons hc _ => exact absurd (hu _ rfl) (by simp [hc])
  | cons hc _ ih =>
      cases h' with
      | nil => exact absurd (hv _ rfl) (by simp [hc])
      | cons _ h' => exact ih h' hu

/-- The characters of numbers. -/
def inNumber (c : Char) : Bool :=
  c.isDigit || c == '-' || c == '+' || c == '.' || c == 'e' || c == 'E'

/-- A text in front of which a number ends. -/
def Stops (ts : List Char) : Prop := ∀ c ∈ ts.head?, inNumber c = false

theorem stops_nil : Stops [] := nofun

theorem stops_cons {c : Char} {ts : List Char} (h : inNumber c = false) : Stops (c :: ts) := by
  intro d hd
  cases Option.mem_some.1 hd
  exact h

theorem inNumber_of_isDigit {c : Char} (h : c.isDigit = true) : inNumber c = true := by
  simp [inNumber, h]

theorem inNumber_of_isBlank {c : Char} (h : isBlank c = true) : inNumber c = false := by
  simp only [isBlank, Bool.or_eq_true, beq_iff_eq] at h
  rcases h with ((rfl | rfl) | rfl) | rfl <;> rfl

/-- A number ends in front of blanks. -/
theorem Blanks.stops {ts us : List Char} (h : Blanks ts us) (hu : Stops us) : Stops ts := by
  cases h with
  | nil => exact hu
  | cons hc _ => exact stops_cons (inNumber_of_isBlank hc)

theorem Digits.inNumber {ds : List Char} (h : Digits ds) : ∀ c ∈ ds, inNumber c = true :=
  fun c hc => inNumber_of_isDigit (h.isDigit c hc)

theorem digits_zero : Digits ['0'] := ⟨List.cons_ne_nil _ _, List.forall_mem_singleton.2 rfl⟩

theorem Whole.isDigits {cs : List Char} (h : Whole cs) : Digits cs := by
  cases h with
  | zero => exact digits_zero
  | digits _ h => exact h

theorem Places.inNumber {cs : List Char} (h : Places cs) : ∀ c ∈ cs, inNumber c = true := by
  cases h with
  | none => exact nofun
  | some h => exact List.forall_mem_cons.2 ⟨rfl, h.inNumber⟩

theorem Exponent.inNumber {cs : List Char} (h : Exponent cs) : ∀ c ∈ cs, inNumber c = true := by
  cases h with
  | none => exact nofun
  | unsigned he h =>
      refine List.forall_mem_cons.2 ⟨?_, h.inNumber⟩
      rcases he with rfl | rfl <;> rfl
  | signed he hs h =>
      refine List.forall_mem_cons.2 ⟨?_, List.forall_mem_cons.2 ⟨?_, h.inNumber⟩⟩
      · rcases he with rfl | rfl <;> rfl
      · rcases hs with rfl | rfl <;> rfl

/-- A number without sign begins with a digit, and all its characters are those of numbers. -/
theorem Unsigned.chars {cs : List Char} (h : Unsigned cs) :
    (∃ c rest, cs = c :: rest ∧ c.isDigit = true) ∧ ∀ c ∈ cs, inNumber c = true := by
  obtain ⟨hw, hp, he⟩ := h
  refine ⟨?_, List.forall_mem_append.2
    ⟨List.forall_mem_append.2 ⟨hw.isDigits.inNumber, hp.inNumber⟩, he.inNumber⟩⟩
  obtain ⟨c, rest, rfl⟩ := List.exists_cons_of_ne_nil hw.isDigits.ne_nil
  exact ⟨c, _, rfl, hw.isDigits.isDigit c List.mem_cons_self⟩

theorem IsNumber.chars {cs : List Char} (h : IsNumber cs) :
    (∃ c rest, cs = c :: rest ∧ (c = '-' ∨ c.isDigit = true)) ∧ ∀ c ∈ cs, inNumber c = true := by
  cases h with
  | plain h =>
      obtain ⟨⟨c, rest, rfl, hc⟩, hall⟩ := h.chars
      exact ⟨⟨c, rest, rfl, .inr hc⟩, hall⟩
  | negative h =>
      exact ⟨⟨_, _, rfl, .inl rfl⟩, List.forall_mem_cons.2 ⟨rfl, h.chars.2⟩⟩

/-- **A number goes on as long as it can.** -/
theorem IsNumber.unique {cs ds us vs : List Char} (h : IsNumber cs) (h' : IsNumber ds)
    (happ : cs ++ us = ds ++ vs) (hu : Stops us) (hv : Stops vs) : cs = ds ∧ us = vs := by
  have htake : ∀ {cs us : List Char}, (∀ c ∈ cs, inNumber c = true) → Stops us →
      (cs ++ us).takeWhile inNumber = cs := by
    intro cs us hcs hus
    rw [List.takeWhile_append_of_pos hcs]
    cases us with
    | nil => simp
    | cons c us => simp [hus c rfl]
  have hcs : cs = ds := by
    rw [← htake h.chars.2 hu, happ, htake h'.chars.2 hv]
  subst hcs
  exact ⟨rfl, List.append_cancel_left happ⟩

/-! ### Strings -/

theorem Code.unique {ds ts es us : List Char} {c d : Char} (h : Code ds c) (h' : Code es d)
    (happ : ds ++ ts = es ++ us) : c = d ∧ ts = us := by
  cases h with
  | mk h₁ h₂ h₃ h₄ _ =>
      cases h' with
      | mk k₁ k₂ k₃ k₄ _ =>
          simp only [List.cons_append, List.nil_append, List.cons.injEq] at happ
          obtain ⟨rfl, rfl, rfl, rfl, rfl⟩ := happ
          obtain rfl := Option.some.inj (h₁.symm.trans k₁)
          obtain rfl := Option.some.inj (h₂.symm.trans k₂)
          obtain rfl := Option.some.inj (h₃.symm.trans k₃)
          obtain rfl := Option.some.inj (h₄.symm.trans k₄)
          exact ⟨rfl, rfl⟩

/-- **A string is determined by its text.** -/
theorem Letters.unique {ts cs us ds vs : List Char} (h : Letters ts cs us) (h' : Letters ts ds vs) :
    cs = ds ∧ us = vs := by
  induction h generalizing ds with
  | close rest =>
      cases h' with
      | close => exact ⟨rfl, rfl⟩
      | plain _ hquote => exact absurd rfl hquote
  | plain _ hquote hback _ ih =>
      cases h' with
      | close => exact absurd rfl hquote
      | plain _ _ _ h' =>
          obtain ⟨rfl, rfl⟩ := ih h'
          exact ⟨rfl, rfl⟩
      | short => exact absurd rfl hback
      | code => exact absurd rfl hback
  | short he _ ih =>
      cases h' with
      | plain _ _ hback => exact absurd rfl hback
      | short he' h' =>
          obtain rfl := Option.some.inj (he.symm.trans he')
          obtain ⟨rfl, rfl⟩ := ih h'
          exact ⟨rfl, rfl⟩
      | code => cases he
  | code hcode hletters ih =>
      generalize htext : '\\' :: 'u' :: (_ ++ _) = text at h'
      cases h' with
      | close => cases htext
      | plain _ _ hback =>
          cases htext
          exact absurd rfl hback
      | short he' =>
          cases htext
          cases he'
      | code hcode' h' =>
          simp only [List.cons.injEq, true_and] at htext
          obtain ⟨rfl, rfl⟩ := hcode.unique hcode' htext
          obtain ⟨rfl, rfl⟩ := ih h'
          exact ⟨rfl, rfl⟩

/-! ### Values -/

/-- The characters with which a value may begin. -/
def Opens (c : Char) : Json → Prop
  | .null => c = 'n'
  | .bool true => c = 't'
  | .bool false => c = 'f'
  | .number _ => c = '-' ∨ c.isDigit = true
  | .string _ => c = '"'
  | .array _ => c = '['
  | .object _ => c = '{'

/-- The first character of a value tells its kind. -/
theorem Spells.first {ts us : List Char} {j : Json} (h : Spells ts j us) :
    ∃ c rest, ts = c :: rest ∧ Opens c j := by
  cases h with
  | number rest h =>
      obtain ⟨⟨c, cs, rfl, hc⟩, -⟩ := h.chars
      exact ⟨c, _, rfl, hc⟩
  | _ => exact ⟨_, _, rfl, rfl⟩

section Opens

variable {c : Char} {j : Json}

theorem eq_null_of_opens (h : Opens 'n' j) : j = .null := by
  cases j with
  | null => rfl
  | bool b => cases b <;> cases h
  | number _ => rcases h with h | h <;> cases h
  | _ => cases h

theorem eq_true_of_opens (h : Opens 't' j) : j = .bool true := by
  cases j with
  | bool b =>
      cases b with
      | true => rfl
      | false => cases h
  | number _ => rcases h with h | h <;> cases h
  | _ => cases h

theorem eq_false_of_opens (h : Opens 'f' j) : j = .bool false := by
  cases j with
  | bool b =>
      cases b with
      | true => cases h
      | false => rfl
  | number _ => rcases h with h | h <;> cases h
  | _ => cases h

theorem eq_number_of_opens (hc : c = '-' ∨ c.isDigit = true) (h : Opens c j) :
    ∃ written, j = .number written := by
  cases j with
  | number written => exact ⟨written, rfl⟩
  | bool b => cases b <;> cases h <;> rcases hc with hc | hc <;> cases hc
  | _ =>
      cases h
      rcases hc with hc | hc <;> cases hc

theorem eq_string_of_opens (h : Opens '"' j) : ∃ value, j = .string value := by
  cases j with
  | string value => exact ⟨value, rfl⟩
  | bool b => cases b <;> cases h
  | number _ => rcases h with h | h <;> cases h
  | _ => cases h

theorem eq_array_of_opens (h : Opens '[' j) : ∃ items, j = .array items := by
  cases j with
  | array items => exact ⟨items, rfl⟩
  | bool b => cases b <;> cases h
  | number _ => rcases h with h | h <;> cases h
  | _ => cases h

theorem eq_object_of_opens (h : Opens '{' j) : ∃ members, j = .object members := by
  cases j with
  | object members => exact ⟨members, rfl⟩
  | bool b => cases b <;> cases h
  | number _ => rcases h with h | h <;> cases h
  | _ => cases h

/-- A value begins neither with a blank nor with a closing bracket. -/
theorem sharp_of_opens (h : Opens c j) : isBlank c = false ∧ c ≠ ']' ∧ c ≠ '}' := by
  cases j with
  | bool b => cases b <;> cases h <;> decide
  | number _ =>
      rcases h with rfl | h
      · decide
      · refine ⟨Bool.eq_false_iff.2 fun hblank => ?_, ?_, ?_⟩
        · exact absurd (inNumber_of_isDigit h) (by simp [inNumber_of_isBlank hblank])
        · rintro rfl
          cases h
        · rintro rfl
          cases h
  | _ =>
      cases h
      decide

end Opens

theorem Spells.sharp {ts us : List Char} {j : Json} (h : Spells ts j us) : Sharp ts := by
  obtain ⟨c, rest, rfl, hc⟩ := h.first
  exact sharp_cons (sharp_of_opens hc).1

/-- No value begins with a closing bracket. -/
theorem not_spells_of_closing {c : Char} {ts us : List Char} {j : Json} (hc : c = ']' ∨ c = '}') :
    ¬Spells (c :: ts) j us := by
  intro h
  obtain ⟨d, rest, hts, hd⟩ := h.first
  cases hts
  rcases hc with rfl | rfl
  · exact (sharp_of_opens hd).2.1 rfl
  · exact (sharp_of_opens hd).2.2 rfl

/-- The characters behind an element. -/
def Delimited (ts : List Char) : Prop := Sharp ts ∧ Stops ts

theorem delimited_cons {c : Char} (ts : List Char) (h : c = ',' ∨ c = ']' ∨ c = '}') :
    Delimited (c :: ts) := by
  rcases h with rfl | rfl | rfl <;> exact ⟨sharp_cons rfl, stops_cons rfl⟩

theorem Element.not_closing {ts us vs : List Char} {j : Json} {c : Char}
    (h : Element ts j us) (hc : c = ']' ∨ c = '}') : ¬Blanks ts (c :: vs) := by
  obtain ⟨hblanks, hspells, -⟩ := h
  intro hclosing
  have hsharp : Sharp (c :: vs) := by
    rcases hc with rfl | rfl <;> exact sharp_cons rfl
  obtain rfl := hblanks.unique hclosing hspells.sharp hsharp
  exact not_spells_of_closing hc hspells

theorem Items.not_closing {ts us vs : List Char} {items : List Json} (h : Items ts items us) :
    ¬Blanks ts (']' :: vs) := by
  cases h with
  | last h => exact h.not_closing (.inl rfl)
  | more h _ => exact h.not_closing (.inl rfl)

theorem Members.not_closing {ts us vs : List Char} {members : List (String × Json)}
    (h : Members ts members us) : ¬Blanks ts ('}' :: vs) := by
  have hmember : ∀ {m : String × Json} {us : List Char}, Member ts m us →
      ¬Blanks ts ('}' :: vs) := by
    rintro m us ⟨hblanks, -, -, -⟩ hclosing
    cases hblanks.unique hclosing (sharp_cons rfl) (sharp_cons rfl)
  cases h with
  | last h => exact hmember h
  | more h _ => exact hmember h

mutual

/-- **A text has at most one value.** -/
theorem Spells.unique {ts us : List Char} {j : Json} : Spells ts j us → ∀ {j' : Json}
    {vs : List Char}, Spells ts j' vs → Stops us → Stops vs → j = j' ∧ us = vs
  | .null _, j', _, h', _, _ => by
      obtain ⟨_, _, hts, hc⟩ := h'.first
      cases hts
      obtain rfl := eq_null_of_opens hc
      generalize htext : 'n' :: _ = text at h'
      cases h'
      cases htext
      exact ⟨rfl, rfl⟩
  | .true _, j', _, h', _, _ => by
      obtain ⟨_, _, hts, hc⟩ := h'.first
      cases hts
      obtain rfl := eq_true_of_opens hc
      generalize htext : 't' :: _ = text at h'
      cases h'
      cases htext
      exact ⟨rfl, rfl⟩
  | .false _, j', _, h', _, _ => by
      obtain ⟨_, _, hts, hc⟩ := h'.first
      cases hts
      obtain rfl := eq_false_of_opens hc
      generalize htext : 'f' :: _ = text at h'
      cases h'
      cases htext
      exact ⟨rfl, rfl⟩
  | .number rest h, j', _, h', hu, hv => by
      obtain ⟨⟨c, cs, rfl, hc⟩, -⟩ := h.chars
      obtain ⟨_, _, hts, hc'⟩ := h'.first
      cases hts
      obtain ⟨written, rfl⟩ := eq_number_of_opens hc hc'
      generalize htext : c :: cs ++ rest = text at h'
      cases h' with
      | number rest h' =>
          obtain ⟨rfl, rfl⟩ := h.unique h' htext hu hv
          exact ⟨rfl, rfl⟩
  | .string h, j', _, h', _, _ => by
      obtain ⟨_, _, hts, hc⟩ := h'.first
      cases hts
      obtain ⟨value, rfl⟩ := eq_string_of_opens hc
      generalize htext : '"' :: _ = text at h'
      cases h' with
      | string h' =>
          cases htext
          obtain ⟨rfl, rfl⟩ := h.unique h'
          exact ⟨rfl, rfl⟩
  | .emptyArray h, j', _, h', _, _ => by
      obtain ⟨_, _, hts, hc⟩ := h'.first
      cases hts
      obtain ⟨items, rfl⟩ := eq_array_of_opens hc
      generalize htext : '[' :: _ = text at h'
      cases h' with
      | emptyArray h' =>
          cases htext
          cases h.unique h' (sharp_cons rfl) (sharp_cons rfl)
          exact ⟨rfl, rfl⟩
      | array h' =>
          cases htext
          exact absurd h h'.not_closing
  | .array h, j', _, h', _, _ => by
      obtain ⟨_, _, hts, hc⟩ := h'.first
      cases hts
      obtain ⟨items, rfl⟩ := eq_array_of_opens hc
      generalize htext : '[' :: _ = text at h'
      cases h' with
      | emptyArray h' =>
          cases htext
          exact absurd h' h.not_closing
      | array h' =>
          cases htext
          obtain ⟨rfl, rfl⟩ := h.unique h'
          exact ⟨rfl, rfl⟩
  | .emptyObject h, j', _, h', _, _ => by
      obtain ⟨_, _, hts, hc⟩ := h'.first
      cases hts
      obtain ⟨members, rfl⟩ := eq_object_of_opens hc
      generalize htext : '{' :: _ = text at h'
      cases h' with
      | emptyObject h' =>
          cases htext
          cases h.unique h' (sharp_cons rfl) (sharp_cons rfl)
          exact ⟨rfl, rfl⟩
      | object h' =>
          cases htext
          exact absurd h h'.not_closing
  | .object h, j', _, h', _, _ => by
      obtain ⟨_, _, hts, hc⟩ := h'.first
      cases hts
      obtain ⟨members, rfl⟩ := eq_object_of_opens hc
      generalize htext : '{' :: _ = text at h'
      cases h' with
      | emptyObject h' =>
          cases htext
          exact absurd h' h.not_closing
      | object h' =>
          cases htext
          obtain ⟨rfl, rfl⟩ := h.unique h'
          exact ⟨rfl, rfl⟩

theorem Element.unique {ts us : List Char} {j : Json} : Element ts j us → ∀ {j' : Json}
    {vs : List Char}, Element ts j' vs → Delimited us → Delimited vs → j = j' ∧ us = vs
  | .mk hfront h hback, _, _, .mk hfront' h' hback', hu, hv => by
      obtain rfl := hfront.unique hfront' h.sharp h'.sharp
      obtain ⟨rfl, rfl⟩ := h.unique h' (hback.stops hu.2) (hback'.stops hv.2)
      exact ⟨rfl, hback.unique hback' hu.1 hv.1⟩

theorem Items.unique {ts us : List Char} {items : List Json} : Items ts items us →
    ∀ {items' : List Json} {vs : List Char}, Items ts items' vs → items = items' ∧ us = vs
  | .last h, _, _, h' => by
      cases h' with
      | last h' =>
          obtain ⟨rfl, hrest⟩ := h.unique h' (delimited_cons _ (.inr (.inl rfl)))
            (delimited_cons _ (.inr (.inl rfl)))
          cases hrest
          exact ⟨rfl, rfl⟩
      | more h' _ =>
          cases (h.unique h' (delimited_cons _ (.inr (.inl rfl)))
            (delimited_cons _ (.inl rfl))).2
  | .more h hs, _, _, h' => by
      cases h' with
      | last h' =>
          cases (h.unique h' (delimited_cons _ (.inl rfl))
            (delimited_cons _ (.inr (.inl rfl)))).2
      | more h' hs' =>
          obtain ⟨rfl, hrest⟩ := h.unique h' (delimited_cons _ (.inl rfl))
            (delimited_cons _ (.inl rfl))
          cases hrest
          obtain ⟨rfl, rfl⟩ := hs.unique hs'
          exact ⟨rfl, rfl⟩

theorem Member.unique {ts us : List Char} {m : String × Json} : Member ts m us →
    ∀ {m' : String × Json} {vs : List Char}, Member ts m' vs → Delimited us → Delimited vs →
      m = m' ∧ us = vs
  | .mk hfront hname hcolon h, _, _, .mk hfront' hname' hcolon' h', hu, hv => by
      cases hfront.unique hfront' (sharp_cons rfl) (sharp_cons rfl)
      obtain ⟨rfl, rfl⟩ := hname.unique hname'
      cases hcolon.unique hcolon' (sharp_cons rfl) (sharp_cons rfl)
      obtain ⟨rfl, rfl⟩ := h.unique h' hu hv
      exact ⟨rfl, rfl⟩

theorem Members.unique {ts us : List Char} {members : List (String × Json)} :
    Members ts members us → ∀ {members' : List (String × Json)} {vs : List Char},
      Members ts members' vs → members = members' ∧ us = vs
  | .last h, _, _, h' => by
      cases h' with
      | last h' =>
          obtain ⟨rfl, hrest⟩ := h.unique h' (delimited_cons _ (.inr (.inr rfl)))
            (delimited_cons _ (.inr (.inr rfl)))
          cases hrest
          exact ⟨rfl, rfl⟩
      | more h' _ =>
          cases (h.unique h' (delimited_cons _ (.inr (.inr rfl)))
            (delimited_cons _ (.inl rfl))).2
  | .more h hs, _, _, h' => by
      cases h' with
      | last h' =>
          cases (h.unique h' (delimited_cons _ (.inl rfl))
            (delimited_cons _ (.inr (.inr rfl)))).2
      | more h' hs' =>
          obtain ⟨rfl, hrest⟩ := h.unique h' (delimited_cons _ (.inl rfl))
            (delimited_cons _ (.inl rfl))
          cases hrest
          obtain ⟨rfl, rfl⟩ := hs.unique hs'
          exact ⟨rfl, rfl⟩

end

end Scriptlet.Json
