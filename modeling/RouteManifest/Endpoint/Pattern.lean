import RouteManifest.Endpoint.Basic
import RouteManifest.Endpoint.Vocabulary

/-!
The two shapes of database scripts that are recognised. A wrapper around one table
invokes a slot with a database and a table; only the last invocation of a script
counts. A raw query opens a connection and has a select somewhere below it; it is
looked for only when the script is no wrapper.
-/

namespace RouteManifest

open RouteManifest.Script

inductive Pattern
  | tableWrapper (slot : Node)
  | rawQuery (select : Node) (statistics : Bool)
deriving Repr

/-- Schema information that follows from a recognised shape. -/
structure Classification where
  kind : Option EndpointKind := none
  returns : Option (List Field) := none
  array : Option Bool := none
deriving DecidableEq, Repr, Inhabited

def endsWith (suffix text : String) : Bool := suffix.toList.isSuffixOf text.toList

def matchTableWrapper? (script : Node) (vocabulary : Vocabulary) : Option Pattern := do
  let slot ← script.lastChildWhere? fun node => vocabulary.isInvokeSlot node.name
  if slot.hasChild "database" && slot.hasChild "table" then some (.tableWrapper slot) else none

/-- The statistics mark of a script: the flag of the first node of that name. -/
def marksStatistics (script : Node) (vocabulary : Vocabulary) : Bool :=
  (((script.child? vocabulary.isStatistics).bind Node.value).bind Value.flag?).getD false

def matchRawQuery? (script : Node) (vocabulary : Vocabulary) : Option Pattern := do
  let connection ← script.lastChildWhere? fun node => vocabulary.isSqlConnect node.name
  let select ← connection.descendants.reverse.find? fun node =>
    endsWith vocabulary.selectSuffix node.name
  return .rawQuery select (marksStatistics script vocabulary)

def detect? (script : Node) (vocabulary : Vocabulary) : Option Pattern :=
  (matchTableWrapper? script vocabulary).orElse fun _ => matchRawQuery? script vocabulary

/-- With declared input, a returned field carries the value of the first argument that
filters it; without, it keeps the value of its column. -/
def returnedField (input : Option (List Field)) (column : Node) : Field :=
  match input with
  | none => Field.ofNode column
  | some arguments =>
      let filter := column.name ++ ".eq"
      ⟨column.name, (arguments.find? fun argument => argument.name == filter).bind Field.value⟩

def classifyColumns (columns : Node) (input : Option (List Field)) (vocabulary : Vocabulary) :
    Classification :=
  if columns.hasChild vocabulary.countColumn then
    { kind := some .crudCount, returns := some [⟨"count", some (.string "long")⟩],
      array := some false }
  else
    { kind := some .crudRead, returns := some (columns.children.map (returnedField input)),
      array := some true }

def classifyWrapper (slot : Node) (verb : Verb) (input : Option (List Field))
    (vocabulary : Vocabulary) : Classification :=
  match verb with
  | .get =>
      match slot.child? "columns" with
      | some columns => classifyColumns columns input vocabulary
      | none => {}
  | .post => { kind := some .crudCreate }
  | .put => { kind := some .crudUpdate }
  | .delete => { kind := some .crudDelete }

def classify (script : Node) (verb : Verb) (input : Option (List Field))
    (vocabulary : Vocabulary) : Classification :=
  match detect? script vocabulary with
  | some (.tableWrapper slot) => classifyWrapper slot verb input vocabulary
  | some (.rawQuery _ statistics) =>
      { kind := some (if statistics then .crudStatistics else .crudSql) }
  | none => {}

end RouteManifest
