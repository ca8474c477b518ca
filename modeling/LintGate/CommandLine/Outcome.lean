import LintGate.Config.Basic
import LintGate.Process.Host
import LintGate.Profile

/-!
What a task leaves behind: what it printed, which commands it started, why it failed if it did, and
the files as they are then.
-/

namespace LintGate.CommandLine

/-- Why a task failed. -/
inductive TaskFailure
  | config (e : Config.Error)
  | unknownTool (name : String)
  | noTools
  | noProfile
  | profile (e : Profile.Error)
  /-- A reference was given, and more than one file was found. -/
  | severalFiles (count : Nat)
  | file (fault : FileFault)
  | configExists

/-- What is said of a profile that cannot be read; of a bad document, no more than that it is
one. -/
def profileMessage : Profile.Error → String
  | .document _ => "Serialization error"
  | e => e.message

def TaskFailure.message : TaskFailure → String
  | .config e => e.message
  | .unknownTool name => Config.unknownTool name
  | .noTools => "No tools enabled. Configure them in .cxxlens.json (see \x60cxxlens init\x60)."
  | .noProfile => "No rule profile given. Pass --profile or set \"profile\" in the config."
  | .profile e => profileMessage e
  | .severalFiles count =>
    s!"--reference applies to a single file, but {count} files were found"
  | .file fault => fault.message
  | .configExists => "Config file already exists. Use --force to overwrite."

structure Outcome where
  stdout : String := ""
  stderr : String := ""
  failure : Option TaskFailure := none
  /-- Whether the task found something to report. -/
  hasFindings : Bool := false
  /-- The commands that were started. -/
  started : List Command := []
  files : FileTree

/-- The exit code: 2 after a failure, else 1 after findings. -/
def Outcome.code (o : Outcome) : Nat :=
  if o.failure.isSome then 2 else if o.hasFindings then 1 else 0

/-- The outcome of a task that failed and did nothing else. -/
def Outcome.ofFailure (s : Host) (f : TaskFailure) : Outcome where
  failure := some f
  files := s.files

/-- The configuration in a file. -/
def configAt (s : Host) (file : Path) : Except TaskFailure Config :=
  match FileTree.readText s.files s.directory file with
  | .error fault => .error (.config (.unreadable fault))
  | .ok text => (Config.ofFile file text).mapError .config

/-- The configuration file in a directory, if there is one. -/
def configIn? (s : Host) (dir : Path) : Option Path :=
  let file := dir.join (Path.ofString Config.fileName)
  if FileTree.hasFile s.files s.directory file then some file else none

/-- The configuration in the file that was named, or in that of the current directory; without
either, the one that configures nothing. -/
def loadConfig (s : Host) (named : Option Path) : Except TaskFailure Config :=
  match named <|> configIn? s (Path.ofString ".") with
  | some file => configAt s file
  | none => .ok {}

end LintGate.CommandLine
