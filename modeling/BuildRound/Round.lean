import BuildRound.Settings
import BuildRound.World

/-!
# A build round

One round builds all requested artifacts in one evaluation and then each exclusive artifact in an
evaluation of its own. The caller's set of built artifacts moves into the progress of the round, which the
engine notifies, and comes back at the end with everything known to be up to date. What was attached at
the beginning is detached on every way out, after the watchdog has been joined.

Without keep-going the first failure ends the round with its own error. With it, every evaluation is made
and the round fails at the end if any of them did. Cancellation is looked at before each evaluation.
-/

namespace BuildRound.Round

/-! ## What a round is run with -/

/-- The options of a round and what it hands to the engine. -/
structure Setup where
  options : Options
  needsExecution : CacheCheck
  fileCache : FileCache

/-- What one round is to build. -/
structure Order where
  requested : ArtifactSet
  exclusive : List Artifact
  context : ExecutionContext
  modified : ModifiedFiles

/-- Where a round takes place: the shared world and the state of the engine. -/
structure Stage (σ : Type) where
  world : World
  engine : σ

/-- How the threads take turns, and whether a thread can be started at all, with the reason if it cannot. -/
structure Host where
  schedule : World.Schedule := World.attentive
  spawn : Except ErrorChain Unit := .ok ()

def Host.canSpawn (host : Host) : Bool :=
  host.spawn.toBool

theorem Host.canSpawn_iff {host : Host} : host.canSpawn = true ↔ host.spawn = .ok () := by
  unfold canSpawn
  cases host.spawn <;> simp [Except.toBool]

abbrev Act (σ : Type) := StateM (Stage σ)

/-- A part of a round that an error may end. -/
abbrev Attempt (σ : Type) := ExceptT BuildError (Act σ)

variable {σ α : Type}

/-! ## Steps -/

/-- Take one step of the round, after whatever the schedule lets happen before it. -/
def act (host : Host) (f : World → α × World) : Act σ α := fun stage =>
  let (a, world) := f (stage.world.turn host.schedule)
  (a, { stage with world })

def change (host : Host) (f : World → World) : Act σ Unit :=
  act host (fun w => ((), f w))

def say (host : Host) (entries : List Log.Entry) : Act σ Unit :=
  change host (·.say .caller entries)

/-- Note a call in the trace and let the engine run the program for it. -/
def ask (host : Host) (call : Call) (program : σ → Program (α × σ)) : Act σ α := fun stage =>
  let world := (stage.world.turn host.schedule).note (.called call)
  let ((a, engine), world) := (program stage.engine).run host.schedule call.listener world
  (a, { world, engine })

/-- Call the engine for nothing but its effects. -/
def tell (host : Host) (call : Call) (program : σ → Program σ) : Act σ Unit :=
  ask host call (fun s => (program s).bind (fun s => .done ((), s)))

/-! ## Evaluations -/

/-- A part that no error ends. -/
def lift (part : Act σ α) : Attempt σ α :=
  ExceptT.lift part

/-- End the round if the answer is an error. -/
def orFail (answer : Except BuildError α) : Attempt σ α :=
  ExceptT.mk (pure answer)

/-- End the round if its context is cancelled. -/
def checkCancelled (host : Host) (order : Order) : Attempt σ Unit := do
  let answer ← lift (act host (fun w =>
    (w.signals.check order.context.cancellation, w.note .checked)))
  orFail answer

/-- What an evaluation of these artifacts is asked with. -/
def request (setup : Setup) (order : Order) (artifacts : ArtifactSet) (listener : Option Nat) : Request where
  artifacts
  context := order.context
  keepGoing := setup.options.keepGoing
  jobs := setup.options.jobs
  needsExecution := setup.needsExecution
  listener

def evaluate (host : Host) (engine : Engine σ) (request : Request) : Attempt σ EvaluationResult := do
  let answer ← lift (ask host (.evaluate request) (engine.evaluate request))
  lift (change host (·.note (.answered request.listener answer)))
  orFail answer

def reportCycles (host : Host) (engine : Engine σ) : List EvaluationResult.CycleReport → Act σ Unit
  | [] => pure ()
  | report :: rest => do
      tell host (.reportCycles report) (engine.reportCycles report)
      reportCycles host engine rest

/-- Report the cycles of all failed nodes, then decide what the result means. -/
def judge (host : Host) (engine : Engine σ) (setup : Setup) (result : EvaluationResult) :
    Attempt σ Bool := do
  lift (reportCycles host engine result.cycleReports)
  lift (say host (result.verdictLog setup.options.keepGoing))
  orFail (result.verdict setup.options.keepGoing)

/-- Make an evaluation unless the round is cancelled, and judge its result. -/
def episode (host : Host) (engine : Engine σ) (setup : Setup) (order : Order)
    (evaluation : Attempt σ EvaluationResult) : Attempt σ Bool := do
  checkCancelled host order
  let result ← evaluation
  judge host engine setup result

/-- Evaluate all requested artifacts, with the progress as listener; what came out well is built. -/
def evaluateMain (host : Host) (engine : Engine σ) (setup : Setup) (order : Order) (progress : Nat) :
    Attempt σ EvaluationResult := do
  let result ← evaluate host engine (request setup order order.requested (some progress))
  lift (change host (·.onProgress progress (fun p => { p with built := p.built.extend result.values })))
  return result

/-- Evaluate an exclusive artifact alone, with nobody listening. -/
def evaluateAlone (host : Host) (engine : Engine σ) (setup : Setup) (order : Order) (artifact : Artifact) :
    Attempt σ EvaluationResult := do
  lift (say host [.event .info "building exclusively" [("artifact", artifact.text)]])
  evaluate host engine (request setup order (.ofList [artifact]) none)

/-! ## Building -/

def survey (host : Host) (engine : Engine σ) (order : Order) : Attempt σ Unit := do
  let conflicts ← lift (ask host .findConflicts engine.findConflicts)
  lift (change host (·.note (.examined conflicts)))
  orFail conflicts
  lift (tell host (.informModified order.modified) (engine.informModified order.modified))

def buildMain (host : Host) (engine : Engine σ) (setup : Setup) (order : Order) (progress : Nat) :
    Attempt σ Bool := do
  let success ← episode host engine setup order (evaluateMain host engine setup order progress)
  let completed ← lift (act host (fun w => (w.readProgress progress (·.completedCount) 0, w)))
  let enqueued ← lift (act host (fun w => (w.readProgress progress (·.enqueuedCount) 0, w)))
  lift (say host [.event .info "main build finished"
    [("success", Log.flag success), ("completed", toString completed), ("enqueued", toString enqueued)]])
  return success

/-- Build the exclusive artifacts one after another; the answer says whether all went well, `success`
included. -/
def buildExclusive (host : Host) (engine : Engine σ) (setup : Setup) (order : Order) :
    List Artifact → Bool → Attempt σ Bool
  | [], success => pure success
  | artifact :: rest, success => do
      let fine ← episode host engine setup order (evaluateAlone host engine setup order artifact)
      buildExclusive host engine setup order rest (fine && success)

/-- Everything between attaching and cleaning up, with the watchdog at work. -/
def build (host : Host) (engine : Engine σ) (setup : Setup) (order : Order) (progress : Nat) :
    Attempt σ Bool := do
  survey host engine order
  let success ← buildMain host engine setup order progress
  if order.exclusive.isEmpty then return success
  lift (change host (fun w => { w with watch := { w.watch with exclusive := true } }))
  buildExclusive host engine setup order order.exclusive success

/-! ## Setting up and cleaning up -/

/-- Move the caller's set into a new progress, put a new board on the bus, and make a watchdog for both. -/
def setUp (host : Host) (setup : Setup) (order : Order) (built : ArtifactSet) : Act σ Attachment := do
  let progress ← act host (·.newProgress order.requested built)
  let board ← act host World.newBoard
  let interval := setup.options.reportInterval
  say host (Watchdog.creationLog interval)
  change host (fun w => { w with watch := { dog := .ofInterval interval, progress, board } })
  return { progress, board }

/-- The error of a round whose watchdog could not be started for this reason. -/
def unwatched (reason : ErrorChain) : BuildError :=
  .internal (reason.addContext "failed to start inactivity watchdog")

/-- Start a thread for the watchdog, unless one is running. -/
def spawnWatchdog (host : Host) (w : World) : Except BuildError Unit × World :=
  let (started, dog) := w.watch.dog.start host.canSpawn
  (if started then .ok () else host.spawn.mapError unwatched, World.withDog (dog, w))

def startWatchdog (host : Host) : Attempt σ Unit := do
  let answer ← lift (act host (spawnWatchdog host))
  orFail answer

/-- Prepare the engine, make what the round needs and attach it. -/
def enter (host : Host) (engine : Engine σ) (setup : Setup) (order : Order) (built : ArtifactSet) :
    Act σ Attachment := do
  tell host .prepare engine.prepare
  tell host .setFileCache (engine.setFileCache setup.fileCache)
  let objects ← setUp host setup order built
  tell host (.attach objects) (engine.attach (some objects))
  return objects

def work (host : Host) (engine : Engine σ) (setup : Setup) (order : Order) (progress : Nat) :
    Attempt σ Bool := do
  startWatchdog host
  build host engine setup order progress

/-- Stop the watchdog if it runs: raise its flag, interrupt its wait, join its thread. -/
def stopWatchdog (host : Host) : Act σ Unit := do
  let running ← act host (fun w => (w.watch.dog.isRunning, w))
  if running then
    change host (fun w => World.withDog ({ w.watch.dog with stopping := true }, w))
    change host World.surroundings.interrupt
    change host World.joinWatchdog

/-- Stop the watchdog, detach from the engine and take the built set back out. -/
def cleanUp (host : Host) (engine : Engine σ) (objects : Attachment) : Act σ ArtifactSet := do
  stopWatchdog host
  tell host .detach (engine.attach none)
  change host (·.dismissBoard objects.board)
  let built ← act host (fun w =>
    (w.readProgress objects.progress Progress.built .empty,
      (w.onProgress objects.progress (fun p => { p with built := .empty })).note .released))
  say host [.event .debug "build round cleaned up" [("built", toString built.size)]]
  return built

/-! ## The round -/

/-- How a round ends, by what building brought. -/
def outcome : Except BuildError Bool → Except BuildError Unit
  | .ok true => .ok ()
  | .ok false => .error (.buildFailed none)
  | .error e => .error e

/-- The span that is open during a round. -/
def span (setup : Setup) (order : Order) : Log.Entry :=
  .span "build_artifacts"
    [("artifacts", toString order.requested.size), ("exclusive", toString order.exclusive.length),
      ("keep_going", Log.flag setup.options.keepGoing), ("jobs", toString setup.options.jobs)]

/-- Run a round. The answer is how it ended and the caller's set after it. -/
def run (host : Host) (engine : Engine σ) (setup : Setup) (order : Order) (built : ArtifactSet) :
    Act σ (Except BuildError Unit × ArtifactSet) := do
  say host [span setup order]
  match setup.options.validate with
  | .error e => return (.error (.config e), built)
  | .ok () =>
      let objects ← enter host engine setup order built
      let answer ← ExceptT.run (work host engine setup order objects.progress)
      let built ← cleanUp host engine objects
      return (outcome answer, built)

/-- How many percent of the actions of the last round were answered from the cache; that is not counted
yet. -/
def percentageCached : Nat := 0

end BuildRound.Round
