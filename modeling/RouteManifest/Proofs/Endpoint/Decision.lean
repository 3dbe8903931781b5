import Mathlib.Data.List.Forall2
import RouteManifest.Endpoint.Pattern
import RouteManifest.Proofs.Script.Search

/-!
How a script is classified. The last invocation of a slot decides first: where it has a database
and a table, the script wraps a table, and then the verb tells the kind, for get together with
the columns. Only a script that wraps no table is searched for a select, below the last
connection that it opens. The decisions stand in one table of rules, and the classification of
a script is the one that a rule gives.
-/

namespace RouteManifest

open RouteManifest.Script

theorem to_lower_to_nat (character : Char) :
    character.toLower.toNat =
      if 65 ≤ character.toNat ∧ character.toNat ≤ 90 then character.toNat + 32
      else character.toNat := by
  delta Char.toLower
  split
  · next capital =>
      have bounds : 65 ≤ character.toNat ∧ character.toNat ≤ 90 := by
        simpa [UInt32.le_iff_toNat_le] using capital
      have shifted : (character.val + 32).toNat = character.toNat + 32 := by
        have distance : (32 : UInt32).toNat = 32 := rfl
        rw [UInt32.toNat_add, distance, Char.toNat_val]
        exact Nat.mod_eq_of_lt (by omega)
      rw [if_pos bounds]
      exact shifted
  · next other =>
      have bounds : ¬ (65 ≤ character.toNat ∧ character.toNat ≤ 90) := by
        simpa [UInt32.le_iff_toNat_le] using other
      rw [if_neg bounds]

theorem to_lower_eq_iff {character small capital : Char}
    (distance : small.toNat = capital.toNat + 32)
    (letter : 65 ≤ capital.toNat ∧ capital.toNat ≤ 90) :
    character.toLower = small ↔ character ∈ [small, capital] := by
  rw [List.mem_pair, ← Char.toNat_inj, ← Char.toNat_inj, ← Char.toNat_inj, to_lower_to_nat]
  split <;> omega

def IsTrueWord (text : String) : Prop :=
  List.Forall₂ (fun character letters => character ∈ letters) text.toList
    [['t', 'T'], ['r', 'R'], ['u', 'U'], ['e', 'E']]

def IsTrue : Value → Prop
  | .bool flag => flag = true
  | .string text => IsTrueWord text
  | .int _ => False
  | .decimal _ => False

theorem is_true_word_iff {text : String} :
    IsTrueWord text ↔ text.toList.map Char.toLower = ['t', 'r', 'u', 'e'] := by
  have t (character : Char) : character.toLower = 't' ↔ character ∈ ['t', 'T'] :=
    to_lower_eq_iff rfl (by decide)
  have r (character : Char) : character.toLower = 'r' ↔ character ∈ ['r', 'R'] :=
    to_lower_eq_iff rfl (by decide)
  have u (character : Char) : character.toLower = 'u' ↔ character ∈ ['u', 'U'] :=
    to_lower_eq_iff rfl (by decide)
  have e (character : Char) : character.toLower = 'e' ↔ character ∈ ['e', 'E'] :=
    to_lower_eq_iff rfl (by decide)
  rw [IsTrueWord, ← List.forall₂_eq_eq_eq, List.forall₂_map_left_iff]
  simp only [List.forall₂_cons_right_iff, List.forall₂_nil_right_iff, t, r, u, e]

theorem flag_eq_some_true_iff {value : Value} : value.flag? = some true ↔ IsTrue value := by
  cases value with
  | bool flag => simp [Value.flag?, IsTrue]
  | string text =>
      rw [IsTrue, is_true_word_iff, Value.flag?]
      split
      · simp [*]
      · simp [*]
  | int number => simp [Value.flag?, IsTrue]
  | decimal number => simp [Value.flag?, IsTrue]

/-- The last node that invokes a slot names a database and a table. -/
structure WrapsTable (script : Node) (vocabulary : Vocabulary) (slot : Node) : Prop where
  last : IsLast (fun node => node.name ∈ vocabulary.invokeSlots) script.children slot
  database : ∃ child ∈ slot.children, child.name = "database"
  table : ∃ child ∈ slot.children, child.name = "table"

/-- A select stands somewhere below the last node that opens a connection. -/
def HasSelect (script : Node) (vocabulary : Vocabulary) : Prop :=
  ∃ connection, IsLast (fun node => node.name ∈ vocabulary.sqlConnects) script.children connection ∧
    ∃ select, connection.HasBelow select ∧
      vocabulary.selectSuffix.toList <:+ select.name.toList

def IsMarked (script : Node) (vocabulary : Vocabulary) : Prop :=
  ∃ mark value, IsFirst (fun node => node.name = vocabulary.isStatistics) script.children mark ∧
    mark.value = some value ∧ IsTrue value

/-- The answer for a verb, with one rule for each way to come to it. -/
inductive Decides (script : Node) (vocabulary : Vocabulary) (input : Option (List Field)) :
    Verb → Classification → Prop
  | create {slot : Node} (wraps : WrapsTable script vocabulary slot) :
      Decides script vocabulary input .post { kind := some .crudCreate }
  | update {slot : Node} (wraps : WrapsTable script vocabulary slot) :
      Decides script vocabulary input .put { kind := some .crudUpdate }
  | delete {slot : Node} (wraps : WrapsTable script vocabulary slot) :
      Decides script vocabulary input .delete { kind := some .crudDelete }
  | unlisted {slot : Node} (wraps : WrapsTable script vocabulary slot)
      (noneListed : ∀ child ∈ slot.children, child.name ≠ "columns") :
      Decides script vocabulary input .get {}
  | count {slot columns : Node} (wraps : WrapsTable script vocabulary slot)
      (first : IsFirst (fun node => node.name = "columns") slot.children columns)
      (counted : ∃ column ∈ columns.children, column.name = vocabulary.countColumn) :
      Decides script vocabulary input .get
        { kind := some .crudCount, returns := some [⟨"count", some (.string "long")⟩],
          array := some false }
  | read {slot columns : Node} (wraps : WrapsTable script vocabulary slot)
      (first : IsFirst (fun node => node.name = "columns") slot.children columns)
      (uncounted : ∀ column ∈ columns.children, column.name ≠ vocabulary.countColumn) :
      Decides script vocabulary input .get
        { kind := some .crudRead, returns := some (columns.children.map (returnedField input)),
          array := some true }
  | statistics {verb : Verb} (bare : ∀ slot, ¬ WrapsTable script vocabulary slot)
      (select : HasSelect script vocabulary) (marked : IsMarked script vocabulary) :
      Decides script vocabulary input verb { kind := some .crudStatistics }
  | query {verb : Verb} (bare : ∀ slot, ¬ WrapsTable script vocabulary slot)
      (select : HasSelect script vocabulary) (unmarked : ¬ IsMarked script vocabulary) :
      Decides script vocabulary input verb { kind := some .crudSql }
  | custom {verb : Verb} (bare : ∀ slot, ¬ WrapsTable script vocabulary slot)
      (noSelect : ¬ HasSelect script vocabulary) :
      Decides script vocabulary input verb {}

section Shapes

variable {script : Node} {vocabulary : Vocabulary} {slot : Node} {pattern : Pattern}

theorem is_invoke_slot_iff {name : String} :
    vocabulary.isInvokeSlot name = true ↔ name ∈ vocabulary.invokeSlots :=
  List.contains_iff_mem

theorem is_sql_connect_iff {name : String} :
    vocabulary.isSqlConnect name = true ↔ name ∈ vocabulary.sqlConnects :=
  List.contains_iff_mem

theorem match_table_wrapper_iff :
    matchTableWrapper? script vocabulary = some pattern ↔
      ∃ slot, WrapsTable script vocabulary slot ∧ pattern = .tableWrapper slot := by
  rw [matchTableWrapper?, Option.bind_eq_bind, Option.bind_eq_some_iff]
  simp only [Node.last_child_eq_some_iff fun _ => is_invoke_slot_iff]
  constructor
  · intro found
    obtain ⟨slot, last, shape⟩ := found
    split at shape
    · next named =>
        rw [Bool.and_eq_true, Node.has_child_iff, Node.has_child_iff] at named
        exact ⟨slot, ⟨last, named.1, named.2⟩, (Option.some.inj shape).symm⟩
    · cases shape
  · intro found
    obtain ⟨slot, wraps, rfl⟩ := found
    have database := Node.has_child_iff.mpr wraps.database
    have table := Node.has_child_iff.mpr wraps.table
    exact ⟨slot, wraps.last, by simp [database, table]⟩

theorem match_table_wrapper_none_iff :
    matchTableWrapper? script vocabulary = none ↔ ∀ slot, ¬ WrapsTable script vocabulary slot := by
  rw [Option.eq_none_iff_forall_ne_some]
  constructor
  · intro none slot wraps
    exact none _ (match_table_wrapper_iff.mpr ⟨slot, wraps, rfl⟩)
  · intro none pattern found
    obtain ⟨slot, wraps, -⟩ := match_table_wrapper_iff.mp found
    exact none slot wraps

theorem marks_statistics_iff :
    marksStatistics script vocabulary = true ↔ IsMarked script vocabulary := by
  rw [marksStatistics, Option.getD_eq_iff]
  simp only [Option.bind_eq_some_iff, Node.child_eq_some_iff, flag_eq_some_true_iff, IsMarked,
    Bool.false_eq_true, and_false, or_false]
  constructor
  · intro marked
    obtain ⟨value, ⟨mark, first, carries⟩, isTrue⟩ := marked
    exact ⟨mark, value, first, carries, isTrue⟩
  · intro marked
    obtain ⟨mark, value, first, carries, isTrue⟩ := marked
    exact ⟨value, ⟨mark, first, carries⟩, isTrue⟩

theorem ends_with_iff {suffix text : String} :
    endsWith suffix text = true ↔ suffix.toList <:+ text.toList :=
  List.isSuffixOf_iff_suffix

theorem has_select_iff :
    HasSelect script vocabulary ↔
      ∃ connection,
        (script.lastChildWhere? fun node => vocabulary.isSqlConnect node.name) = some connection ∧
        ∃ select ∈ connection.descendants, endsWith vocabulary.selectSuffix select.name = true := by
  simp only [HasSelect, Node.last_child_eq_some_iff fun _ => is_sql_connect_iff,
    Node.mem_descendants_iff, ends_with_iff]

theorem match_raw_query_is_some_iff :
    (matchRawQuery? script vocabulary).isSome = true ↔ HasSelect script vocabulary := by
  rw [has_select_iff, matchRawQuery?]
  cases script.lastChildWhere? fun node => vocabulary.isSqlConnect node.name with
  | none => simp
  | some connection => simp [Option.isSome_bind]

theorem match_raw_query_shape (found : matchRawQuery? script vocabulary = some pattern) :
    ∃ select, pattern = .rawQuery select (marksStatistics script vocabulary) := by
  simp only [matchRawQuery?, Option.bind_eq_bind, Option.bind_eq_some_iff] at found
  obtain ⟨connection, -, select, -, shape⟩ := found
  exact ⟨select, (Option.some.inj shape).symm⟩

end Shapes

section Rules

variable {script : Node} {vocabulary : Vocabulary} {input : Option (List Field)} {verb : Verb}
  {slot : Node}

theorem classify_wrapped (wraps : WrapsTable script vocabulary slot) :
    classify script verb input vocabulary = classifyWrapper slot verb input vocabulary := by
  rw [classify, detect?, match_table_wrapper_iff.mpr ⟨slot, wraps, rfl⟩]
  rfl

theorem detect_bare (bare : ∀ slot, ¬ WrapsTable script vocabulary slot) :
    detect? script vocabulary = matchRawQuery? script vocabulary := by
  rw [detect?, match_table_wrapper_none_iff.mpr bare]
  rfl

theorem classify_query (bare : ∀ slot, ¬ WrapsTable script vocabulary slot)
    (select : HasSelect script vocabulary) :
    classify script verb input vocabulary =
      { kind := some (if marksStatistics script vocabulary then .crudStatistics else .crudSql) } := by
  obtain ⟨pattern, found⟩ := Option.isSome_iff_exists.mp (match_raw_query_is_some_iff.mpr select)
  obtain ⟨node, rfl⟩ := match_raw_query_shape found
  rw [classify, detect_bare bare, found]

theorem classify_custom (bare : ∀ slot, ¬ WrapsTable script vocabulary slot)
    (noSelect : ¬ HasSelect script vocabulary) :
    classify script verb input vocabulary = {} := by
  have nothing : matchRawQuery? script vocabulary = none := by
    rw [← Option.not_isSome_iff_eq_none, match_raw_query_is_some_iff]
    exact noSelect
  rw [classify, detect_bare bare, nothing]

theorem decides_columns (wraps : WrapsTable script vocabulary slot) {columns : Node}
    (first : IsFirst (fun node => node.name = "columns") slot.children columns) :
    Decides script vocabulary input .get (classifyColumns columns input vocabulary) := by
  rw [classifyColumns]
  split
  · next counted => exact .count wraps first (Node.has_child_iff.mp counted)
  · next uncounted =>
      rw [Node.has_child_iff] at uncounted
      exact .read wraps first fun column member named => uncounted ⟨column, member, named⟩

theorem decides_wrapper (wraps : WrapsTable script vocabulary slot) :
    Decides script vocabulary input verb (classifyWrapper slot verb input vocabulary) := by
  cases verb with
  | get =>
      rw [classifyWrapper]
      split
      · next found => exact decides_columns wraps (Node.child_eq_some_iff.mp found)
      · next missing => exact .unlisted wraps (Node.child_eq_none_iff.mp missing)
  | post => exact .create wraps
  | put => exact .update wraps
  | delete => exact .delete wraps

/-- Some rule gives the classification of a script. -/
theorem decides_classify :
    Decides script vocabulary input verb (classify script verb input vocabulary) := by
  by_cases wrapped : ∃ slot, WrapsTable script vocabulary slot
  · obtain ⟨slot, wraps⟩ := wrapped
    rw [classify_wrapped wraps]
    exact decides_wrapper wraps
  · have bare := not_exists.mp wrapped
    by_cases select : HasSelect script vocabulary
    · rw [classify_query bare select]
      split
      · next marked => exact .statistics bare select (marks_statistics_iff.mp marked)
      · next unmarked => exact .query bare select (mt marks_statistics_iff.mpr unmarked)
    · rw [classify_custom bare select]
      exact .custom bare select

/-- No rule gives anything else. -/
theorem classify_eq_of_decides {result : Classification}
    (decides : Decides script vocabulary input verb result) :
    classify script verb input vocabulary = result := by
  cases decides with
  | create wraps => exact classify_wrapped wraps
  | update wraps => exact classify_wrapped wraps
  | delete wraps => exact classify_wrapped wraps
  | unlisted wraps missing =>
      rw [classify_wrapped wraps, classifyWrapper, Node.child_eq_none_iff.mpr missing]
  | count wraps first counted =>
      rw [classify_wrapped wraps, classifyWrapper, Node.child_eq_some_iff.mpr first]
      simp only [classifyColumns, Node.has_child_iff.mpr counted, if_true]
  | read wraps first uncounted =>
      have noneCounted := mt Node.has_child_iff.mp (by simpa using uncounted)
      rw [classify_wrapped wraps, classifyWrapper, Node.child_eq_some_iff.mpr first]
      simp only [classifyColumns, noneCounted, if_false, Bool.false_eq_true]
  | statistics bare select marked =>
      rw [classify_query bare select, if_pos (marks_statistics_iff.mpr marked)]
  | query bare select unmarked =>
      rw [classify_query bare select, if_neg (mt marks_statistics_iff.mp unmarked)]
  | custom bare noSelect => exact classify_custom bare noSelect

end Rules

/-- Every script is classified by the rule that applies to it, for every verb and input. Returned
fields and a collection flag are given for exactly the kinds read and count, and a read alone
returns a collection. -/
theorem classify_decision_table (script : Node) (verb : Verb) (input : Option (List Field))
    (vocabulary : Vocabulary) :
    let result := classify script verb input vocabulary
    (∀ answer, result = answer ↔ Decides script vocabulary input verb answer) ∧
    (result.returns.isSome = true ↔ result.array.isSome = true) ∧
    (result.array.isSome = true ↔
      result.kind = some .crudRead ∨ result.kind = some .crudCount) ∧
    (result.array = some true ↔ result.kind = some .crudRead) ∧
    (result.kind = some .crudCount ↔ result =
      { kind := some .crudCount, returns := some [⟨"count", some (.string "long")⟩],
        array := some false }) := by
  intro result
  have decides : Decides script vocabulary input verb result := decides_classify
  constructor
  · intro answer
    constructor
    · intro same
      rwa [← same]
    · exact classify_eq_of_decides
  · clear_value result
    cases decides <;> simp

/-- A table without columns keeps a select behind it from being looked for. -/
example : classify { name := "", children := [
      { name := "signal", children := [Node.ofText "database" "a", Node.ofText "table" "b"] },
      { name := "wait.mysql.connect", children := [{ name := "mysql.select" }] }] }
    .get none {} = {} := by decide

end RouteManifest
