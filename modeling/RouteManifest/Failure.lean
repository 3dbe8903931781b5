import RouteManifest.Disk.Access
import RouteManifest.Endpoint.Basic

/-!
What can end a discovery: the file system, a script that cannot be read, two files
for one endpoint, or a request to stop. A loader from outside may also fail in its own
worker, in its settings or in writing. Each failure has a message and the chain of its
causes, outermost first.
-/

namespace RouteManifest

/-- The operation that failed below an input or output failure; a loader from outside has
words of its own for what failed. -/
inductive AccessCause
  | enumerating (path : String) (fault : DiskFault)
  | reading (fault : ReadFault)
  | other (reason : String)
deriving DecidableEq, Repr

namespace AccessCause

def message : AccessCause → String
  | enumerating path fault => s!"IO error for operation on {path}: {fault.message}"
  | reading fault => fault.message
  | other reason => reason

def chain : AccessCause → List String
  | enumerating path fault => [(enumerating path fault).message, fault.message]
  | reading fault => [fault.message]
  | other reason => [reason]

end AccessCause

inductive Failure
  | access (path : String) (cause : AccessCause)
  | script (path : String) (line : Nat) (message : String)
  | duplicate (path verb : String)
  | worker (reason : String)
  | settings (reason : String)
  | json (reason : String)
  | cancelled
deriving DecidableEq, Repr

namespace Failure

def message : Failure → String
  | access path cause => s!"I/O error at {path}: {cause.message}"
  | script path line message => s!"Parse error in {path} at line {line}: {message}"
  | duplicate path verb => s!"Duplicate endpoint: {verb} {path}"
  | worker reason => s!"Discovery worker failed: {reason}"
  | settings reason => s!"Configuration error: {reason}"
  | json reason => s!"JSON serialization error: {reason}"
  | cancelled => "Discovery cancelled"

def chain (failure : Failure) : List String :=
  failure.message ::
    match failure with
    | access _ cause => cause.chain
    | json reason => [reason]
    | _ => []

end Failure

end RouteManifest
