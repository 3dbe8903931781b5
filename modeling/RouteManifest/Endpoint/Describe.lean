import RouteManifest.Endpoint.Declaration
import RouteManifest.Endpoint.Pattern

/-!
The endpoint of a script: what it declares together with what its shape implies.
-/

namespace RouteManifest

open RouteManifest.Script

def describe (script : Node) (path : String) (verb : Verb) (vocabulary : Vocabulary) : Endpoint :=
  let input := declaredInput script vocabulary
  let schema := classify script verb input vocabulary
  { path, verb, input,
    roles := declaredRoles script vocabulary
    description := declaredDescription script vocabulary
    returns := schema.returns
    array := schema.array
    kind := schema.kind }

end RouteManifest
