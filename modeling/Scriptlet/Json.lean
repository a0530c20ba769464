/-
**JSON values and their indented text.**

A JSON value keeps the members of an object in order and a number as the text it is written with.
The indented text puts every item and every member on a line of its own, two spaces deeper than
the bracket around it; an empty array or object is written as its two brackets.

Main definitions:

* `Scriptlet.Json` — the values;
* `Scriptlet.Json.quote` — a string between quotes, with the escapes it needs;
* `Scriptlet.Json.chars`, `Scriptlet.Json.text` — the indented text of a value.
-/

set_option relaxedAutoImplicit false
set_option autoImplicit false

namespace Scriptlet

/-- A JSON value. -/
inductive Json
  /-- `null`. -/
  | null
  /-- `true` or `false`. -/
  | bool (value : Bool)
  /-- A number, as it is written. -/
  | number (written : String)
  /-- A string. -/
  | string (value : String)
  /-- An array. -/
  | array (items : List Json)
  /-- An object, its members in order. -/
  | object (members : List (String × Json))

namespace Json

/-! ### Strings -/

/-- The lower-case hexadecimal digit of a number below 16. -/
def hexDigit (n : Nat) : Char :=
  if n < 10 then Char.ofNat (n + 48) else Char.ofNat (n + 87)

/-- A character as it stands in a quoted string.  The quote, the backslash and the characters
below the space are escaped, those with a short escape by it. -/
def escape (c : Char) : List Char :=
  if c = '"' then ['\\', '"']
  else if c = '\\' then ['\\', '\\']
  else if c = '\n' then ['\\', 'n']
  else if c = '\r' then ['\\', 'r']
  else if c = '\t' then ['\\', 't']
  else if c = '\x08' then ['\\', 'b']
  else if c = '\x0c' then ['\\', 'f']
  else if c.toNat < 32 then ['\\', 'u', '0', '0', hexDigit (c.toNat / 16), hexDigit (c.toNat % 16)]
  else [c]

/-- A string between quotes. -/
def quote (s : String) : List Char := '"' :: s.toList.flatMap escape ++ ['"']

/-! ### Indented text -/

/-- A line break followed by the indentation of a level. -/
def newline (level : Nat) : List Char := '\n' :: List.replicate (2 * level) ' '

mutual

/-- The indented text of a value that stands at a level. -/
def chars (level : Nat) : Json → List Char
  | .null => ['n', 'u', 'l', 'l']
  | .bool true => ['t', 'r', 'u', 'e']
  | .bool false => ['f', 'a', 'l', 's', 'e']
  | .number written => written.toList
  | .string value => quote value
  | .array [] => ['[', ']']
  | .array (item :: items) =>
      '[' :: newline (level + 1) ++ chars (level + 1) item ++ itemChars (level + 1) items
        ++ newline level ++ [']']
  | .object [] => ['{', '}']
  | .object ((name, value) :: members) =>
      '{' :: newline (level + 1) ++ quote name ++ [':', ' '] ++ chars (level + 1) value
        ++ memberChars (level + 1) members ++ newline level ++ ['}']
termination_by structural j => j

/-- The items behind the first, each after a comma. -/
def itemChars (level : Nat) : List Json → List Char
  | [] => []
  | item :: items => ',' :: newline level ++ chars level item ++ itemChars level items
termination_by structural items => items

/-- The members behind the first, each after a comma. -/
def memberChars (level : Nat) : List (String × Json) → List Char
  | [] => []
  | (name, value) :: members =>
      ',' :: newline level ++ quote name ++ [':', ' '] ++ chars level value
        ++ memberChars level members
termination_by structural members => members

end

/-- The indented text of a value. -/
def text (j : Json) : String := String.ofList (j.chars 0)

/-- A natural number as a value. -/
def nat (n : Nat) : Json := .number (String.ofList (Nat.toDigits 10 n))

end Json

end Scriptlet
