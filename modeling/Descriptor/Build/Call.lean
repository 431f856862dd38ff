/-!
# Calls of a build runner

What a build asks of the runner that it is given.

## Main definitions

* `Call` : one request with all it says.
-/

namespace Descriptor.Build

/-- One request to a runner. -/
inductive Call where
  /-- An environment at a path with requirements installed. -/
  | provision (environment : String) (requires : List String)
  /-- The metadata hook of a backend, run by an interpreter for a project. -/
  | prepare (python backend project target : String)
  deriving DecidableEq, Repr

end Descriptor.Build
