import LintGate.Analysis.Run

/-!
An analysis while it goes on: a thread for each tool, the thread that starts them and becomes the
caller, and the channel between them. Any thread can make the next step; `Step` lists what it may
be.
-/

namespace LintGate

/-- Where the worker of a slot is. A guard goes with the thread and settles the slot at the thread's
end, unless the worker has done so. -/
inductive Worker
  /-- No thread has been asked for. -/
  | absent
  /-- The thread is at work, and the guard is not settled. -/
  | working
  /-- The worker has settled the slot and the guard, and the thread has still to end. -/
  | settled (outcome : WorkerOutcome)
  /-- There is no thread any more, or there never was one. -/
  | ended (outcome : WorkerOutcome)
  deriving DecidableEq

namespace Worker

/-- With what the slot has been settled. -/
def outcome? : Worker → Option WorkerOutcome
  | .absent | .working => none
  | .settled outcome | .ended outcome => some outcome

/-- Whether there is a thread. -/
def isAlive : Worker → Bool
  | .working | .settled _ => true
  | .absent | .ended _ => false

end Worker

/-- Whether a worker that ended so came to its own end. -/
def WorkerOutcome.isResult : WorkerOutcome → Bool
  | .output _ | .failure _ => true
  | .died | .notStarted _ => false

/-- Where the thread is that asked for the analysis. -/
inductive Caller
  /-- It starts the workers, that of slot `next` next. -/
  | starting (next : Nat)
  /-- It has the handle. -/
  | holding
  /-- It waits for the report. -/
  | waiting
  /-- It has given the handle up. -/
  | dropped
  | answered (answer : Except RunFailure AnalysisReport)

/-- What became of an attempt to send a report. -/
inductive SendResult
  | sent
  /-- There was no room left. -/
  | full
  /-- Nobody could receive it any more. -/
  | disconnected
  deriving DecidableEq, Repr

namespace Interleaving

structure State where
  run : Run
  workers : List Worker
  caller : Caller
  /-- Whether the tools have been asked to stop. -/
  cancelled : Bool
  /-- The report that waits to be received; there is room for one. -/
  channel : Option AnalysisReport
  /-- What became of the reports of the completions so far. -/
  sends : List SendResult

namespace State

/-- The run has its slots, and no worker has been started. -/
def start (size : Nat) : State where
  run := Run.start size
  workers := List.replicate size .absent
  caller := .starting 0
  cancelled := false
  channel := none
  sends := []

/-- Whether a report can still be received. -/
def hasReceiver (s : State) : Bool :=
  match s.caller with
  | .dropped | .answered _ => false
  | .starting _ | .holding | .waiting => true

/-- Whether a report can still be sent: some thread is left that knows the run. -/
def hasSender (s : State) : Bool :=
  let isStarting := match s.caller with
    | .starting _ => true
    | _ => false
  isStarting || s.workers.any (·.isAlive) || s.sends.length < s.run.completions.length

/-- Sends a report without waiting for room. -/
def send (s : State) (report : AnalysisReport) : State :=
  if s.hasReceiver then
    match s.channel with
    | none => { s with channel := some report, sends := s.sends ++ [.sent] }
    | some _ => { s with sends := s.sends ++ [.full] }
  else { s with sends := s.sends ++ [.disconnected] }

/-- Settles a slot with an outcome, after which its worker is `worker`. There is no next state when
there is no such slot. -/
def settle (cwd : Path) (request : AnalysisRequest) (s : State) (index : Nat) (linter : Linter)
    (outcome : WorkerOutcome) (worker : Worker) : Option State :=
  let (issues, report) := outcome.settlement cwd linter request
  (s.run.settle index issues report).map fun run =>
    { s with run := run, workers := s.workers.set index worker }

end State

/-- One step of an analysis by some thread. A thread that has completed the run sends the report in
a step of its own, and sees the file as it is then. -/
inductive Step (cwd : Path) (request : AnalysisRequest) (linters : List Linter) :
    State → State → Prop
  | startWorker {s : State} {i : Nat} (hcaller : s.caller = .starting i)
      (hslot : i < linters.length) :
      Step cwd request linters s
        { s with caller := .starting (i + 1), workers := s.workers.set i .working }
  | startFails {s t : State} {i : Nat} {l : Linter} {reason : String}
      (hcaller : s.caller = .starting i) (hslot : linters[i]? = some l)
      (hsettle : s.settle cwd request i l (.notStarted reason) (.ended (.notStarted reason)) =
        some t) :
      Step cwd request linters s { t with caller := .starting (i + 1) }
  | giveHandle {s : State} (hcaller : s.caller = .starting linters.length) :
      Step cwd request linters s { s with caller := .holding }
  /-- The worker comes to its end, with the output of its tool or without. -/
  | finish {s t : State} {i : Nat} {l : Linter} {outcome : WorkerOutcome}
      (hworker : s.workers[i]? = some .working) (hslot : linters[i]? = some l)
      (hresult : outcome.isResult = true)
      (hsettle : s.settle cwd request i l outcome (.settled outcome) = some t) :
      Step cwd request linters s t
  /-- The worker dies at work, and its guard settles the slot. -/
  | die {s t : State} {i : Nat} {l : Linter} (hworker : s.workers[i]? = some .working)
      (hslot : linters[i]? = some l)
      (hsettle : s.settle cwd request i l .died (.ended .died) = some t) :
      Step cwd request linters s t
  | leave {s : State} {i : Nat} {outcome : WorkerOutcome}
      (hworker : s.workers[i]? = some (.settled outcome)) :
      Step cwd request linters s { s with workers := s.workers.set i (.ended outcome) }
  | send {s : State} {completion : Completion} {content : Except FileFault (List UInt8)}
      (howed : s.run.completions[s.sends.length]? = some completion) :
      Step cwd request linters s
        (s.send (.ofSettled request content completion.issues completion.tools))
  /-- The caller asks the tools to stop. Asking again changes nothing and is no step. -/
  | cancel {s : State} (hcaller : s.caller = .holding) (hnew : s.cancelled = false) :
      Step cwd request linters s { s with cancelled := true }
  | drop {s : State} (hcaller : s.caller = .holding) :
      Step cwd request linters s { s with caller := .dropped, channel := none }
  | wait {s : State} (hcaller : s.caller = .holding) :
      Step cwd request linters s { s with caller := .waiting }
  /-- The caller stops waiting once there is a report, or once there can be none. -/
  | receive {s : State} (hcaller : s.caller = .waiting)
      (hready : s.channel.isSome = true ∨ s.hasSender = false) :
      Step cwd request linters s
        { s with
          caller := .answered (AnalysisHandle.wait ⟨request.file, s.channel⟩)
          channel := none }

/-- The states an analysis with these tools can come to. -/
inductive Reachable (cwd : Path) (request : AnalysisRequest) (linters : List Linter) : State → Prop
  | start : Reachable cwd request linters (State.start linters.length)
  | step {s t : State} (hreach : Reachable cwd request linters s)
      (hstep : Step cwd request linters s t) : Reachable cwd request linters t

end Interleaving

end LintGate
