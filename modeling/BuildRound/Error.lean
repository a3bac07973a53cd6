import BuildRound.Path

/-!
# Errors

Why a build round or the reading of its settings failed. Each error has one wording, and some dictate the
exit code of the process. An unexpected error carries a chain of texts, from its root cause outwards.
-/

namespace BuildRound

/-! ## Exit codes -/

namespace ExitCode

def success : Int := 0

/-- The command line or the configuration was wrong. -/
def badArgv : Int := 2

/-- The machine the build runs on has a problem. -/
def localEnvironmentalError : Int := 36

/-- Unexpected termination, the last resort. -/
def internalError : Int := 37

end ExitCode

/-! ## Chains of causes -/

/-- An error with the contexts that were put around its root, innermost first. -/
structure ErrorChain where
  root : String
  contexts : List String := []
  deriving DecidableEq, Repr

namespace ErrorChain

/-- The texts from the outermost context down to the root. -/
def texts (c : ErrorChain) : List String :=
  c.contexts.reverse ++ [c.root]

def message (c : ErrorChain) : String :=
  c.contexts.getLast?.getD c.root

/-- What lies below the outermost text. -/
def sources (c : ErrorChain) : List String :=
  c.texts.tail

def addContext (c : ErrorChain) (context : String) : ErrorChain :=
  { c with contexts := c.contexts ++ [context] }

end ErrorChain

/-! ## Configuration errors -/

/-- Why a file could not be read as text. -/
inductive ReadError where
  | notFound
  | isDirectory
  | notDirectory
  | invalidData
  | invalidInput
  | nameTooLong
  | other (message : String)
  deriving DecidableEq, Repr

/-- Why there are no usable settings. -/
inductive ConfigError where
  | notFound (searched : Path)
  | invalidValue (field reason : String)
  | malformedYaml
  | malformedToml
  | unreadable (reason : ReadError)
  deriving DecidableEq, Repr

/-- The wording of a configuration error, without the reader's own complaint. -/
def ConfigError.message : ConfigError → String
  | .notFound searched => "Configuration file not found at " ++ searched.text
  | .invalidValue field reason => "Invalid configuration: " ++ field ++ " - " ++ reason
  | .malformedYaml => "YAML parsing error"
  | .malformedToml => "TOML parsing error"
  | .unreadable _ => "IO error reading config"

/-! ## Build errors -/

/-- Why a build round failed. -/
inductive BuildError where
  | buildFailed (message : Option String)
  | testExecution (message : String)
  | exitCausing (message : String) (code : Int)
  | cancelled
  | internal (chain : ErrorChain)
  | config (error : ConfigError)
  deriving DecidableEq, Repr

namespace BuildError

def message : BuildError → String
  | buildFailed own => own.getD "Build did not complete successfully"
  | testExecution m => "Test execution failed: " ++ m
  | exitCausing m _ => m
  | cancelled => "Build was cancelled"
  | internal chain => "Unexpected evaluation failure: " ++ chain.message
  | config e => e.message

/-- The exit code the error dictates. Build and test failures leave it to the caller, who knows what was
asked for. -/
def exitCode? : BuildError → Option Int
  | exitCausing _ code => some code
  | internal _ => some ExitCode.internalError
  | config _ => some ExitCode.badArgv
  | buildFailed _ | testExecution _ | cancelled => none

def isCancelled (e : BuildError) : Bool :=
  e = cancelled

/-- The texts of what lies below the error, outermost first. -/
def sources : BuildError → List String
  | internal chain => chain.texts
  | _ => []

end BuildError

/-! ## Causes of failed nodes -/

/-- Why a node of the graph failed, as the engine reports it. -/
inductive Cause where
  | actionFailed (message : String)
  | testFailed (message : String)
  | exitCausing (message : String) (code : Int)
  | unexpected (chain : ErrorChain)
  deriving DecidableEq, Repr

namespace Cause

def message : Cause → String
  | actionFailed m => m
  | testFailed m => m
  | exitCausing m _ => m
  | unexpected chain => chain.message

/-- The texts of what lies below the cause, outermost first. -/
def sources : Cause → List String
  | unexpected chain => chain.sources
  | _ => []

/-- The build error a cause becomes when it ends the round. -/
def toBuildError : Cause → BuildError
  | actionFailed m => .buildFailed (some m)
  | testFailed m => .testExecution m
  | exitCausing m code => .exitCausing m code
  | unexpected chain => .internal chain

end Cause

end BuildRound
