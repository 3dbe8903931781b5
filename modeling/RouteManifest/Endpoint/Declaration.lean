import RouteManifest.Endpoint.Basic
import RouteManifest.Endpoint.Vocabulary
import RouteManifest.Text.Blank

/-!
What a script declares at its top level: input arguments, required roles and a
description. Nothing declared is kept apart from an empty declaration only where
the two differ; an empty list of arguments counts as none.
-/

namespace RouteManifest

open RouteManifest.Script RouteManifest.Text

/-- The roles named in one comma-separated text: trimmed, and not empty. -/
def rolesOfText (text : String) : List String :=
  (((text.toList.splitOn ',').map trim).filter (!·.isEmpty)).map String.ofList

def declaredInput (script : Node) (vocabulary : Vocabulary) : Option (List Field) :=
  match script.child? vocabulary.arguments with
  | none => none
  | some arguments =>
      if arguments.children.isEmpty then none else some (arguments.children.map Field.ofNode)

def declaredRoles (script : Node) (vocabulary : Vocabulary) : Option (List String) :=
  let directives := script.children.filter (Node.isNamed vocabulary.ticketVerify)
  let roles := (directives.filterMap Node.string?).flatMap rolesOfText
  if roles.isEmpty then none else some roles

def declaredDescription (script : Node) (vocabulary : Vocabulary) : Option String :=
  (script.child? vocabulary.description).bind fun node =>
    node.string?.filter fun text => !text.isEmpty

end RouteManifest
