/-
**The indented text of a value spells the value.**

A value is proper if its numbers are texts of numbers and no object in it has two members of one
name.  The indented text of a proper value is a JSON text of just this value: the line breaks and the
indentation are blanks, and every character that a string may not hold is escaped.

Main definitions:

* `Scriptlet.Json.Proper` — **numbers that are numbers, and names that are distinct**.

Main results:

* `Scriptlet.Json.letters_escape` — an escaped character is the character;
* `Scriptlet.Json.spells_chars` — **the indented text of a proper value spells the value**;
* `Scriptlet.Json.text_injective` — two proper values with one text are equal.
-/

import Scriptlet.Proofs.Dump.Grammar

set_option relaxedAutoImplicit false
set_option autoImplicit false

namespace Scriptlet.Json

/-! ### Proper values -/

mutual

/-- **A value whose numbers are texts of numbers, and in which no object repeats a name.** -/
def Proper : Json → Prop
  | .number written => IsNumber written.toList
  | .array items => AllProper items
  | .object members => (members.map Prod.fst).Nodup ∧ MembersProper members
  | _ => True
termination_by structural j => j

/-- Items that are proper. -/
def AllProper : List Json → Prop
  | [] => True
  | j :: js => j.Proper ∧ AllProper js
termination_by structural js => js

/-- Members whose values are proper. -/
def MembersProper : List (String × Json) → Prop
  | [] => True
  | (_, j) :: ms => j.Proper ∧ MembersProper ms
termination_by structural ms => ms

end

/-! ### Strings -/

theorem hexValue?_hexDigit : ∀ n < 16, hexValue? (hexDigit n) = some n := by decide +kernel

/-- The code of a control character names it. -/
theorem code_of_lt {c : Char} (h : c.toNat < 32) :
    Code ['0', '0', hexDigit (c.toNat / 16), hexDigit (c.toNat % 16)] c := by
  have hcode : ((16 * 0 + 0) * 16 + c.toNat / 16) * 16 + c.toNat % 16 = c.toNat := by omega
  have hzero : hexValue? '0' = some 0 := rfl
  have hmk := Code.mk hzero hzero (hexValue?_hexDigit (c.toNat / 16) (by omega))
    (hexValue?_hexDigit (c.toNat % 16) (by omega)) (by rw [hcode]; exact .inl (by omega))
  rwa [hcode, Char.ofNat_toNat] at hmk

/-- **An escaped character is the character.** -/
theorem letters_escape (c : Char) {ts cs rest : List Char} (h : Letters ts cs rest) :
    Letters (escape c ++ ts) (c :: cs) rest := by
  unfold escape
  split
  · subst c
    exact .short rfl h
  split
  · subst c
    exact .short rfl h
  split
  · subst c
    exact .short rfl h
  split
  · subst c
    exact .short rfl h
  split
  · subst c
    exact .short rfl h
  split
  · subst c
    exact .short rfl h
  split
  · subst c
    exact .short rfl h
  split
  · rename_i hlow
    exact .code (code_of_lt hlow) h
  · rename_i hquote hback _ _ _ _ _ hhigh
    exact .plain (Nat.le_of_not_lt hhigh) hquote hback h

/-- A quoted string, behind its opening quote. -/
theorem letters_quote (s : String) (rest : List Char) :
    Letters (s.toList.flatMap escape ++ '"' :: rest) s.toList rest := by
  induction s.toList with
  | nil => exact .close rest
  | cons c cs ih =>
      rw [List.flatMap_cons, List.append_assoc]
      exact letters_escape c ih

theorem quote_append (s : String) (rest : List Char) :
    quote s ++ rest = '"' :: (s.toList.flatMap escape ++ '"' :: rest) := by
  simp [quote]

theorem spells_quote (s : String) (rest : List Char) :
    Spells (quote s ++ rest) (.string s) rest := by
  have hspells := Spells.string (letters_quote s rest)
  rwa [String.ofList_toList, ← quote_append] at hspells

/-! ### Values -/

/-- A line break with an indentation is blank. -/
theorem blanks_newline (level : Nat) (ts : List Char) : Blanks (newline level ++ ts) ts := by
  have hspaces : ∀ n, Blanks (List.replicate n ' ' ++ ts) ts := fun n => by
    induction n with
    | zero => exact .nil ts
    | succ n ih => exact .cons rfl ih
  exact .cons rfl (hspaces _)

/-- A member on a line of its own. -/
theorem member_chars (level : Nat) (name : String) {value : Json} {ts us vs : List Char}
    (h : Spells ts value us) (hback : Blanks us vs) :
    Member (newline level ++ (quote name ++ (':' :: ' ' :: ts))) (name, value) vs := by
  have hspace : Blanks (' ' :: ts) ts := .cons rfl (.nil ts)
  have hmember : Member _ (.ofList name.toList, value) vs :=
    .mk (blanks_newline level _) (letters_quote name _) (.nil _) (.mk hspace h hback)
  rwa [String.ofList_toList, ← quote_append] at hmember

mutual

/-- **The indented text of a proper value spells the value**, whatever stands behind it. -/
theorem spells_chars (level : Nat) : ∀ j : Json, j.Proper → ∀ rest : List Char,
    Spells (j.chars level ++ rest) j rest
  | .null, _, rest => .null rest
  | .bool true, _, rest => .true rest
  | .bool false, _, rest => .false rest
  | .number written, h, rest => by
      have hspells := Spells.number rest h
      rwa [String.ofList_toList] at hspells
  | .string value, _, rest => spells_quote value rest
  | .array [], _, rest => .emptyArray (.nil _)
  | .array (item :: items), h, rest => by
      have hitems := items_itemChars level (level + 1) items h.2 (spells_chars (level + 1) item h.1)
        rest
      simpa [chars] using Spells.array hitems
  | .object [], _, rest => .emptyObject (.nil _)
  | .object ((name, value) :: members), h, rest => by
      have hmembers := members_memberChars level (level + 1) members h.2.2 name
        (spells_chars (level + 1) value h.2.1) rest
      simpa [chars] using Spells.object hmembers

/-- The items of an array behind its bracket. -/
theorem items_itemChars (outer level : Nat) : ∀ items : List Json, AllProper items →
    ∀ {item : Json}, (∀ rest, Spells (item.chars level ++ rest) item rest) → ∀ rest : List Char,
    Items (newline level ++ (item.chars level ++ (itemChars level items ++
      (newline outer ++ ']' :: rest)))) (item :: items) rest
  | [], _, _, h, rest => .last (.mk (blanks_newline level _) (h _) (blanks_newline outer _))
  | next :: items, hs, _, h, rest => by
      have hitems := items_itemChars outer level items hs.2 (spells_chars level next hs.1) rest
      refine .more (.mk (blanks_newline level _) (h _) ?_) hitems
      simpa [itemChars] using Blanks.nil _

/-- The members of an object behind its brace. -/
theorem members_memberChars (outer level : Nat) : ∀ members : List (String × Json),
    MembersProper members → ∀ (name : String) {value : Json},
    (∀ rest, Spells (value.chars level ++ rest) value rest) → ∀ rest : List Char,
    Members (newline level ++ (quote name ++ (':' :: ' ' :: (value.chars level ++
      (memberChars level members ++ (newline outer ++ '}' :: rest)))))) ((name, value) :: members)
      rest
  | [], _, name, _, h, rest => .last (member_chars level name (h _) (blanks_newline outer _))
  | (next, value) :: members, hs, name, _, h, rest => by
      have hmembers := members_memberChars outer level members hs.2 next
        (spells_chars level value hs.1) rest
      refine .more (member_chars level name (h _) ?_) hmembers
      simpa [memberChars] using Blanks.nil _

end

/-- The whole text of a proper value spells it. -/
theorem spells_text {j : Json} (h : j.Proper) : Spells j.text.toList j [] := by
  have hspells := spells_chars 0 j h []
  rwa [List.append_nil, ← String.toList_ofList (l := j.chars 0)] at hspells

/-- **Two proper values with one text are equal.** -/
theorem text_injective {j j' : Json} (h : j.Proper) (h' : j'.Proper) (htext : j.text = j'.text) :
    j = j' := by
  have hspells := spells_text h
  rw [htext] at hspells
  exact (hspells.unique (spells_text h') stops_nil stops_nil).1

end Scriptlet.Json
