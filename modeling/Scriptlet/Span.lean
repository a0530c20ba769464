/-
**Places in a source text.**

A source is a list of characters, and every place in it is counted in UTF-8 bytes.  A `Position`
says how far a reader has come: the bytes behind it and the line it stands on, where only a line
feed ends a line.  A `Span` is a stretch of the source: where it begins, how many bytes it has,
and the line of its first byte.

Main definitions:

* `Scriptlet.Position.next`, `Scriptlet.Position.after` — the position behind one character and
  behind a list of characters;
* `Scriptlet.Span`, `Scriptlet.Span.through` — a stretch of the source, and the stretch from the
  start of one to the end of another.

Main results:

* `Scriptlet.Position.after_append` — reading a list piece by piece reaches the same position;
* `Scriptlet.Position.after_offset`, `Scriptlet.Position.after_line` — **the offset counts the
  bytes read and the line counts the line feeds read**.
-/

set_option relaxedAutoImplicit false
set_option autoImplicit false

namespace Scriptlet

/-! ### Spans -/

/-- A stretch of source text: its first byte, its length in bytes, and the line it starts on. -/
structure Span where
  /-- The number of bytes before the stretch. -/
  offset : Nat
  /-- The number of bytes in the stretch. -/
  len : Nat
  /-- The line of the first byte, counted from 1. -/
  line : Nat
deriving DecidableEq, Repr, Inhabited

namespace Span

/-- The offset just behind a span. -/
def stop (s : Span) : Nat := s.offset + s.len

/-- The span from the start of `a` to the end of `b`; empty at the start of `a` if `b` ends
before it. -/
def through (a b : Span) : Span :=
  ⟨a.offset, max b.stop a.offset - a.offset, a.line⟩

@[simp] theorem through_offset (a b : Span) : (a.through b).offset = a.offset := rfl

@[simp] theorem through_line (a b : Span) : (a.through b).line = a.line := rfl

/-- The joined span ends where `b` ends, unless that is before the start of `a`. -/
@[simp] theorem through_stop (a b : Span) : (a.through b).stop = max b.stop a.offset := by
  simp only [through, stop]
  omega

end Span

/-! ### Positions -/

/-- How far a source has been read. -/
structure Position where
  /-- The bytes already read. -/
  offset : Nat
  /-- The current line, counted from 1. -/
  line : Nat
deriving DecidableEq, Repr, Inhabited

/-- The number of bytes of a list of characters. -/
def byteLength : List Char → Nat
  | [] => 0
  | c :: cs => c.utf8Size + byteLength cs

@[simp] theorem byteLength_nil : byteLength [] = 0 := rfl

@[simp] theorem byteLength_cons (c : Char) (cs : List Char) :
    byteLength (c :: cs) = c.utf8Size + byteLength cs := rfl

@[simp] theorem byteLength_append (cs ds : List Char) :
    byteLength (cs ++ ds) = byteLength cs + byteLength ds := by
  induction cs with
  | nil => simp
  | cons c cs ih => simp [ih, Nat.add_assoc]

namespace Position

/-- The start of every source. -/
def start : Position := ⟨0, 1⟩

/-- The position behind one character. -/
def next (p : Position) (c : Char) : Position :=
  ⟨p.offset + c.utf8Size, if c = '\n' then p.line + 1 else p.line⟩

/-- The position behind a list of characters. -/
def after (p : Position) (cs : List Char) : Position := cs.foldl next p

/-- The span of `len` bytes that starts at a position. -/
def span (p : Position) (len : Nat) : Span := ⟨p.offset, len, p.line⟩

@[simp] theorem after_nil (p : Position) : p.after [] = p := rfl

@[simp] theorem after_cons (p : Position) (c : Char) (cs : List Char) :
    p.after (c :: cs) = (p.next c).after cs := rfl

/-- Reading a list piece by piece reaches the same position. -/
@[simp] theorem after_append (p : Position) (cs ds : List Char) :
    p.after (cs ++ ds) = (p.after cs).after ds := by
  simp [after]

/-- **The offset counts the bytes read.** -/
theorem after_offset (p : Position) (cs : List Char) :
    (p.after cs).offset = p.offset + byteLength cs := by
  induction cs generalizing p with
  | nil => simp
  | cons c cs ih => simp [ih, next, Nat.add_assoc]

/-- **The line counts the line feeds read.** -/
theorem after_line (p : Position) (cs : List Char) :
    (p.after cs).line = p.line + cs.count '\n' := by
  induction cs generalizing p with
  | nil => simp
  | cons c cs ih =>
      by_cases h : c = '\n'
      · simp [ih, next, h]
        omega
      · simp [ih, next, h]

end Position

end Scriptlet
