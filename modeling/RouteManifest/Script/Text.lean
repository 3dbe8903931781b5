import RouteManifest.Script.Outline
import RouteManifest.Text.Lines

/-!
The text of a script. Every line that is neither blank nor a comment is one node,
three spaces deeper than its parent. Reading turns the significant lines into an
outline and grows it below an unnamed root; the first line that breaks a rule is
reported with its number. Writing gives one line per outline entry.
-/

namespace RouteManifest.Script

open RouteManifest.Text

/-- A script that cannot be read: the number of the line at fault, from one, and the cause. -/
structure ScriptFault where
  line : Nat
  cause : LineFault
deriving DecidableEq, Repr

def ScriptFault.message (fault : ScriptFault) : String := fault.cause.message

def isSpace (character : Char) : Bool := character == ' '

def unindented (line : List Char) : List Char := line.dropWhile isSpace

def indentation (line : List Char) : Nat := (line.takeWhile isSpace).length

def isSignificant (line : List Char) : Bool :=
  !isBlankText (unindented line) && !startsComment (unindented line)

/-- Reads a significant line; its depth may be at most the given level. -/
def readLine (level : Nat) (line : List Char) : Except LineFault OutlineEntry :=
  let text := unindented line
  if text.head? == some '\t' then .error .tabIndentation
  else if indentation line % levelWidth ≠ 0 then .error (.unevenIndentation (indentation line))
  else if level < indentation line / levelWidth then .error .skippedLevel
  else (Label.read text).map fun label => ⟨indentation line / levelWidth, label⟩

/-- Reads the lines from the given number on; the first may be at most at the given level. -/
def readLines (number level : Nat) : List (List Char) → Except ScriptFault (List OutlineEntry)
  | [] => .ok []
  | line :: rest =>
      if isSignificant line then
        match readLine level line with
        | .error cause => .error ⟨number, cause⟩
        | .ok entry =>
            (readLines (number + 1) (entry.depth + 1) rest).map fun entries => entry :: entries
      else readLines (number + 1) level rest

def readOutline (source : List Char) : Except ScriptFault (List OutlineEntry) :=
  readLines 1 0 (lines '\n' '\r' source)

def parse (source : String) : Except ScriptFault Node :=
  (readOutline source.toList).map fun entries => { name := "", children := grow entries }

def OutlineEntry.write (entry : OutlineEntry) : List Char :=
  List.replicate (levelWidth * entry.depth) ' ' ++ entry.label.write ++ ['\n']

def writeOutline (entries : List OutlineEntry) : List Char := entries.flatMap OutlineEntry.write

/-- The node and everything below it, from the left margin on. -/
def Node.toText (node : Node) : String := String.ofList (writeOutline (node.outline 0))

def forestText (nodes : List Node) : String := String.ofList (writeOutline (Node.outlineAll 0 nodes))

end RouteManifest.Script
