/-!
# Places in a text

A place is the number of characters before it. Messages also give its line and column.
-/

namespace CompletionServer.Text

/-- The line and the column of the character after `before`, both counted from one. -/
def lineColumn (before : List Char) : Nat × Nat :=
  (before.count '\n' + 1, (before.reverse.takeWhile (· != '\n')).length + 1)

/-- The place in `text` with `left` characters after it. -/
def placeOf (text : List Char) (left : Nat) : Nat := text.length - left

end CompletionServer.Text
