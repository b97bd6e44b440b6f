import CompletionServer.Text.Line

/-!
# Editing texts

A change replaces a whole text, or the stretch between two places of it. A client counts columns in
units of an encoding, so that a character may take several. A place beyond the end of its line is
the one before the end of the line, and a place beyond the last line is at the end of that line.

A stretch whose end lies on an earlier line than its start is not replaced.

A text may hold halves of pairs of surrogates that stand alone. They come to stand side by side when
what is between them is cut out, and are two points all the same.
-/

namespace CompletionServer

open Text

/-- The encodings in whose units columns may be counted. -/
inductive ColumnEncoding where
  | utf8
  | utf16
  | utf32
deriving DecidableEq, Repr, Inhabited

/-- A place in a text: a line, and a column in units of an encoding. -/
structure Place where
  line : Nat
  column : Nat
deriving DecidableEq, Repr, Inhabited

/-- A change of a text. -/
inductive Change where
  | whole (text : List Point)
  | stretch (start stop : Place) (text : List Point)
deriving DecidableEq, Repr, Inhabited

namespace ColumnEncoding

/-- The name of an encoding on the wire. -/
def name : ColumnEncoding → String
  | .utf8 => "utf-8"
  | .utf16 => "utf-16"
  | .utf32 => "utf-32"

/-- The encoding with a name. -/
def ofName? (name : String) : Option ColumnEncoding :=
  [utf8, utf16, utf32].find? fun e ↦ e.name == name

@[simp] theorem ofName?_name (e : ColumnEncoding) : ofName? e.name = some e := by
  cases e <;> decide

/-- The units of a point. A half that stands alone is one unit of UTF-16. Counted in bytes, it has as
many as the other numbers between U+0800 and U+FFFF. -/
def width (e : ColumnEncoding) (p : Point) : Nat :=
  match e, p with
  | .utf8, .char c => c.utf8Size
  | .utf8, .half _ => 3
  | .utf16, p => if p.code < 0x10000 then 1 else 2
  | .utf32, _ => 1

/-- The units of a text. -/
def units (e : ColumnEncoding) : List Point → Nat
  | [] => 0
  | p :: s => e.width p + units e s

/-- The number of points that reach to a column. -/
def pointsTo (e : ColumnEncoding) : (column : Nat) → List Point → Nat
  | 0, _ => 0
  | _, [] => 0
  | column + 1, p :: s => pointsTo e (column + 1 - e.width p) s + 1

end ColumnEncoding

/-! ## Places -/

/-- The line with one character at its end where it has two. -/
def shortEnd (line : List Point) : List Point :=
  match line with
  | .char '\r' :: .char '\n' :: rest => .char '\n' :: rest
  | p :: rest => p :: shortEnd rest
  | [] => []

/-- The number of points before a column of a line. -/
def pointsBefore (e : ColumnEncoding) (line : List Point) (column : Nat) : Nat :=
  let line := shortEnd line
  let length := e.units line
  e.pointsTo (if length < column then length - 1 else column) line

/-- The line of a place in a text with `lines`, and the number of points before it there. -/
def locate (e : ColumnEncoding) (lines : List (List Point)) (p : Place) : Nat × Nat :=
  match lines[p.line]? with
  | some line => (p.line, pointsBefore e line p.column)
  | none =>
    match lines.getLast? with
    | some last => (lines.length - 1, e.units last)
    | none => (0, 0)

/-! ## Changes -/

/-- What becomes of one line, with its number, when the stretch between two places is replaced. -/
def replaceInLine (start stop : Nat × Nat) (text : List Point) (number : Nat)
    (line : List Point) : List Point :=
  if number < start.1 || stop.1 < number then line
  else
    (if number = start.1 then line.take start.2 ++ text else [])
      ++ (if number = stop.1 then line.drop stop.2 else [])

/-- The text after a change. -/
def Change.apply (e : ColumnEncoding) (text : List Point) : Change → List Point
  | .whole new => new
  | .stretch start stop new =>
    match Text.lines text with
    | [] => text ++ new
    | lines => (lines.mapIdx (replaceInLine (locate e lines start) (locate e lines stop) new)).flatten

end CompletionServer
