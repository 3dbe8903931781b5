/-!
Requests to stop. A token can be cloned, and a token and its clones form a family: to
cancel one of them cancels them all, also those that are cloned later, and no token of
another family. A pool numbers its tokens from zero in the order in which they came.
-/

namespace RouteManifest

inductive TokenStep
  | fresh
  | clone (token : Nat)
  | cancel (token : Nat)
deriving DecidableEq, Repr

/-- The family of every token, named by the number of its first token, and the families
that are cancelled. -/
structure TokenPool where
  families : List Nat
  cancelled : List Nat
deriving DecidableEq, Repr

namespace TokenPool

def start : TokenPool := ⟨[0], []⟩

def size (pool : TokenPool) : Nat := pool.families.length

/-- A step on a token that the pool does not have changes nothing. -/
def step (pool : TokenPool) : TokenStep → TokenPool
  | .fresh => { pool with families := pool.families ++ [pool.size] }
  | .clone token => { pool with families := pool.families ++ pool.families[token]?.toList }
  | .cancel token => { pool with cancelled := pool.families[token]?.toList ++ pool.cancelled }

def run (pool : TokenPool) (steps : List TokenStep) : TokenPool := steps.foldl step pool

def isCancelled (pool : TokenPool) (token : Nat) : Bool :=
  pool.families[token]?.any pool.cancelled.contains

/-- For every token whether it is cancelled. -/
def flags (pool : TokenPool) : List Bool := (List.range pool.size).map pool.isCancelled

example :
    (start.run [.clone 0, .fresh, .cancel 1, .clone 0]).flags = [true, true, false, true] := by
  decide

end TokenPool

end RouteManifest
