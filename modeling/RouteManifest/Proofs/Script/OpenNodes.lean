import RouteManifest.Proofs.Script.Reading

/-!
A script read in one pass with a stack of open nodes, the topmost one first and the root last. A
line closes the nodes that are not above it, each into the one below, and opens a node of its own;
behind the last line all nodes are closed into the root. This pass gives what is given by reading
an outline and growing it, for every source: the open nodes hold what has grown so far, and to
close a node goes together with taking the deeper trees behind an entry as its children.
-/

namespace RouteManifest.Script

open RouteManifest.Text

/-- Takes the topmost node away and makes it the last child of the one below. -/
def closeTop : List Node → List Node
  | node :: parent :: rest => parent.push node :: rest
  | _ => []

theorem length_close_top (stack : List Node) : (closeTop stack).length = stack.length - 1 := by
  match stack with
  | [] => rfl
  | [_] => rfl
  | _ :: _ :: _ => rfl

/-- Closes nodes until at most so many are open. -/
def closeTo (size : Nat) (stack : List Node) : List Node :=
  if size < stack.length then closeTo size (closeTop stack) else stack
termination_by stack.length
decreasing_by
  rw [length_close_top]
  omega

def readInto (number : Nat) (stack : List Node) (line : List Char) :
    Except ScriptFault (List Node) :=
  let text := unindented line
  let depth := indentation line / levelWidth
  if isBlankText text || startsComment text then .ok stack
  else if text.head? == some '\t' then .error ⟨number, .tabIndentation⟩
  else if indentation line % levelWidth ≠ 0 then
    .error ⟨number, .unevenIndentation (indentation line)⟩
  else if stack.length < depth + 1 then .error ⟨number, .skippedLevel⟩
  else
    match Label.read text with
    | .error cause => .error ⟨number, cause⟩
    | .ok label => .ok ({ name := label.name, value := label.value } :: closeTo (depth + 1) stack)

def readAllInto (number : Nat) (stack : List Node) :
    List (List Char) → Except ScriptFault (List Node)
  | [] => .ok stack
  | line :: rest => do
      let opened ← readInto number stack line
      readAllInto (number + 1) opened rest

def parseInOnePass (source : String) : Except ScriptFault Node :=
  (readAllInto 1 [{ name := "" }] (lines '\n' '\r' source.toList)).map fun stack =>
    (closeTo 1 stack).head?.getD { name := "" }

section Closing

variable {size : Nat} {stack : List Node}

theorem close_to_of_le (le : stack.length ≤ size) : closeTo size stack = stack := by
  rw [closeTo, if_neg (Nat.not_lt.mpr le)]

theorem close_to_of_lt (lt : size < stack.length) :
    closeTo size stack = closeTo size (closeTop stack) := by
  rw [closeTo, if_pos lt]

theorem length_close_to (size : Nat) (stack : List Node) :
    (closeTo size stack).length = min size stack.length := by
  fun_induction closeTo size stack with
  | case1 stack lt induction =>
      rw [induction, length_close_top]
      omega
  | case2 stack le => omega

end Closing

/-- Opens a node for an entry. -/
def place (stack : List Node) (entry : OutlineEntry) : List Node :=
  { name := entry.label.name, value := entry.label.value } :: closeTo (entry.depth + 1) stack

theorem place_ne_nil (stack : List Node) (entry : OutlineEntry) : place stack entry ≠ [] :=
  List.cons_ne_nil _ _

theorem level_place {stack : List Node} {entry : OutlineEntry} (root : stack ≠ [])
    (fits : entry.depth ≤ stack.length - 1) : (place stack entry).length - 1 = entry.depth + 1 := by
  have positive : 0 < stack.length := List.length_pos_iff.mpr root
  have enough : entry.depth + 1 ≤ stack.length := by omega
  rw [place, List.length_cons, length_close_to, Nat.min_eq_left enough, Nat.add_sub_cancel]

theorem read_into_eq (number : Nat) {stack : List Node} (root : stack ≠ []) (line : List Char) :
    readInto number stack line =
      if isSignificant line then
        match readLine (stack.length - 1) line with
        | .error cause => .error ⟨number, cause⟩
        | .ok entry => .ok (place stack entry)
      else .ok stack := by
  have positive : 0 < stack.length := List.length_pos_iff.mpr root
  have level : stack.length < indentation line / levelWidth + 1 ↔
      stack.length - 1 < indentation line / levelWidth := by
    omega
  unfold readInto isSignificant readLine
  simp only [← Bool.not_or, Bool.not_eq_true', level]
  cases isBlankText (unindented line) || startsComment (unindented line) with
  | true => rfl
  | false =>
      simp only [Bool.false_eq_true, if_false, if_true]
      split
      · rfl
      · split
        · rfl
        · split
          · rfl
          · cases Label.read (unindented line) <;> rfl

theorem read_all_into_eq (number : Nat) {stack : List Node} (root : stack ≠ [])
    (lines : List (List Char)) :
    readAllInto number stack lines =
      (readLines number (stack.length - 1) lines).map fun entries => entries.foldl place stack := by
  induction lines generalizing number stack with
  | nil => rfl
  | cons line rest induction =>
      rw [readAllInto, read_into_eq number root line, readLines]
      split
      · cases read : readLine (stack.length - 1) line with
        | error cause => rfl
        | ok entry =>
            have fits : entry.depth ≤ stack.length - 1 := (read_line_eq_ok_iff.mp read).2.2.1
            have later := induction (number + 1) (place_ne_nil stack entry)
            rw [level_place root fits] at later
            calc readAllInto (number + 1) (place stack entry) rest
                = (readLines (number + 1) (entry.depth + 1) rest).map fun entries =>
                    (entry :: entries).foldl place stack := later
              _ = ((readLines (number + 1) (entry.depth + 1) rest).map (entry :: ·)).map
                    fun entries => entries.foldl place stack := by
                  cases readLines (number + 1) (entry.depth + 1) rest <;> rfl
      · exact induction (number + 1) root

/-- Opens a tree that has grown, and closes it at once. -/
def attach (stack : List Node) (growth : Growth) : List Node :=
  closeTop (growth.node :: closeTo (growth.depth + 1) stack)

theorem attach_children {rest : List Node} {growths : List Growth}
    (level : ∀ growth ∈ growths, growth.depth = rest.length) (name : String)
    (value : Option Value) (children : List Node) :
    growths.foldl attach (⟨name, value, children⟩ :: rest) =
      ⟨name, value, children ++ growths.map Growth.node⟩ :: rest := by
  induction growths generalizing children with
  | nil => rw [List.map_nil, List.append_nil, List.foldl_nil]
  | cons growth growths induction =>
      obtain ⟨first, others⟩ := List.forall_mem_cons.mp level
      have kept : closeTo (growth.depth + 1) (⟨name, value, children⟩ :: rest) =
          ⟨name, value, children⟩ :: rest :=
        close_to_of_le (Nat.le_of_eq (by rw [first, List.length_cons]))
      rw [List.foldl_cons, attach, kept, List.map_cons, List.append_cons]
      exact induction others (children ++ [growth.node])

theorem attach_closed {stack : List Node} {growths : List Growth} (several : 1 < stack.length)
    (shallow : ∀ growth ∈ growths.head?, growth.depth + 1 < stack.length) :
    closeTo 1 (growths.foldl attach stack) = closeTo 1 (growths.foldl attach (closeTop stack)) := by
  cases growths with
  | nil => exact close_to_of_lt several
  | cons growth growths =>
      have closed := close_to_of_lt (shallow growth rfl)
      rw [List.foldl_cons, List.foldl_cons, attach, closed, attach]

/-- A node that is open for an entry takes the trees behind it that the entry takes. -/
theorem attach_grown {stack : List Node} {entry : OutlineEntry} {grown : List Growth}
    (fits : entry.depth + 1 ≤ stack.length)
    (bounded : ∀ growth ∈ grown, growth.depth ≤ entry.depth + 1) :
    closeTo 1 (grown.foldl attach (place stack entry)) =
      closeTo 1 ((growEntry entry grown).foldl attach stack) := by
  let deeper (growth : Growth) : Bool := decide (entry.depth < growth.depth)
  let base := closeTo (entry.depth + 1) stack
  let node : Node := ⟨entry.label.name, entry.label.value, (grown.takeWhile deeper).map Growth.node⟩
  have size : base.length = entry.depth + 1 := by
    rw [length_close_to, Nat.min_eq_left fits]
  have children : ∀ growth ∈ grown.takeWhile deeper, growth.depth = base.length := by
    intro growth member
    rw [size]
    exact depth_of_taken bounded member
  have shallow : ∀ growth ∈ (grown.dropWhile deeper).head?,
      growth.depth + 1 < (node :: base).length := by
    intro growth first
    have above : growth.depth ≤ entry.depth := depth_of_left first
    rw [List.length_cons]
    omega
  calc closeTo 1 (grown.foldl attach (place stack entry))
      = closeTo 1 ((grown.dropWhile deeper).foldl attach
          ((grown.takeWhile deeper).foldl attach (place stack entry))) := by
        rw [← List.foldl_append, List.takeWhile_append_dropWhile]
    _ = closeTo 1 ((grown.dropWhile deeper).foldl attach (node :: base)) := by
        rw [place, attach_children children, List.nil_append]
    _ = closeTo 1 ((grown.dropWhile deeper).foldl attach (closeTop (node :: base))) := by
        apply attach_closed _ shallow
        rw [List.length_cons]
        omega
    _ = closeTo 1 ((growEntry entry grown).foldl attach stack) := rfl

/-- To open a node for each entry gives in the end what is given by attaching the trees that grow
from the entries. -/
theorem close_placed {stack : List Node} {entries : List OutlineEntry} (root : stack ≠ [])
    (nested : WellNested (stack.length - 1) entries) :
    closeTo 1 (entries.foldl place stack) =
      closeTo 1 ((entries.foldr growEntry []).foldl attach stack) := by
  induction entries generalizing stack with
  | nil => rfl
  | cons entry entries induction =>
      obtain ⟨fits, later⟩ := nested
      have positive : 0 < stack.length := List.length_pos_iff.mpr root
      have nestedLater : WellNested ((place stack entry).length - 1) entries := by
        rw [level_place root fits]
        exact later
      rw [List.foldl_cons, induction (place_ne_nil stack entry) nestedLater, List.foldr_cons]
      exact attach_grown (by omega) (grown_depth_le later)

/-- One pass with a stack gives what the outline grows into, or the same fault. -/
theorem parse_in_one_pass (source : String) : parseInOnePass source = parse source := by
  rw [parseInOnePass, read_all_into_eq 1 (List.cons_ne_nil _ _), List.length_singleton,
    Nat.sub_self, parse, readOutline]
  cases read : readLines 1 0 (lines '\n' '\r' source.toList) with
  | error fault => rfl
  | ok entries =>
      have nested := read_lines_well_nested read
      have top : ∀ growth ∈ entries.foldr growEntry [], growth.depth = ([] : List Node).length :=
        fun growth member => Nat.le_zero.mp (grown_depth_le nested growth member)
      have root : closeTo 1 [⟨"", none, [] ++ (entries.foldr growEntry []).map Growth.node⟩] =
          [{ name := "", children := grow entries }] := close_to_of_le (Nat.le_refl 1)
      have closed := close_placed (List.cons_ne_nil { name := "" } []) nested
      rw [attach_children top, root] at closed
      simp only [Except.map, closed, List.head?_cons, Option.getD_some]

end RouteManifest.Script
