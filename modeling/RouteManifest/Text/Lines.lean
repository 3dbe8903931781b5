/-!
Splitting a text into lines. A line ends at the newline mark; one return mark
directly before that newline belongs to the line ending. What follows the last
newline is a line of its own when it is not empty, and keeps its return mark.
The symbols are left open: scripts are split as characters, protocol input as
octets.
-/

namespace RouteManifest.Text

variable {Symbol : Type} [DecidableEq Symbol]

/-- The newline-terminated lines, without their newlines, and what follows the
last newline. -/
def splitLines (newline : Symbol) : List Symbol → List (List Symbol) × List Symbol
  | [] => ([], [])
  | symbol :: rest =>
      let (whole, tail) := splitLines newline rest
      if symbol = newline then ([] :: whole, tail)
      else
        match whole with
        | [] => ([], symbol :: tail)
        | line :: later => ((symbol :: line) :: later, tail)

def dropLast (mark : Symbol) : List Symbol → List Symbol
  | [] => []
  | [symbol] => if symbol = mark then [] else [symbol]
  | symbol :: next :: rest => symbol :: dropLast mark (next :: rest)

def lines (newline mark : Symbol) (text : List Symbol) : List (List Symbol) :=
  let (whole, tail) := splitLines newline text
  whole.map (dropLast mark) ++ if tail.isEmpty then [] else [tail]

end RouteManifest.Text
