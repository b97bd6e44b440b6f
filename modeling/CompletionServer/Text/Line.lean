import CompletionServer.Text.Point

/-!
# Lines

Two notions of where a line ends. A file is read with all its line ends turned into line feeds. A
document is cut into lines at every character that ends one, and keeps these characters.
-/

namespace CompletionServer.Text

/-- The text with a line feed for each line end. -/
def unifyLineEnds : List Char → List Char
  | '\r' :: '\n' :: s => '\n' :: unifyLineEnds s
  | '\r' :: s => '\n' :: unifyLineEnds s
  | c :: s => c :: unifyLineEnds s
  | [] => []

/-- Whether a character ends a line of a document. -/
def endsLine (c : Char) : Bool :=
  let n := c.toNat
  (10 ≤ n && n ≤ 13) || (28 ≤ n && n ≤ 30) || n == 0x85 || n == 0x2028 || n == 0x2029

/-- A point before the lines of what follows it. -/
def prependPoint (p : Point) : List (List Point) → List (List Point)
  | [] => [[p]]
  | line :: lines => (p :: line) :: lines

/-- The lines of a document, each with its end; the last one may have none. -/
def lines : List Point → List (List Point)
  | [] => []
  | .char '\r' :: .char '\n' :: s => [ .char '\r', .char '\n'] :: lines s
  | p :: s => if p.satisfies endsLine then [p] :: lines s else prependPoint p (lines s)

end CompletionServer.Text
