import LintGate.Text.Digits

/-!
Signals: their numbers and names, what is said of a process that one of them ended, and what they
do to a process that has made no provision.
-/

namespace LintGate

/-- What a signal does to a process. -/
inductive SignalAction
  | ends
  | stops
  | nothing
  deriving DecidableEq, Repr

structure Signal where
  number : Nat
  name : String
  /-- What a shell says when a program was ended by it. -/
  description : String
  action : SignalAction := .ends

namespace Signal

/-- The signals that have names. -/
def all : List Signal := [
  ⟨1, "HUP", "Hangup", .ends⟩, ⟨2, "INT", "Interrupt", .ends⟩, ⟨3, "QUIT", "Quit", .ends⟩,
  ⟨4, "ILL", "Illegal instruction", .ends⟩, ⟨5, "TRAP", "Trace/breakpoint trap", .ends⟩,
  ⟨6, "ABRT", "Aborted", .ends⟩, ⟨7, "BUS", "Bus error", .ends⟩,
  ⟨8, "FPE", "Floating point exception", .ends⟩, ⟨9, "KILL", "Killed", .ends⟩,
  ⟨10, "USR1", "User defined signal 1", .ends⟩, ⟨11, "SEGV", "Segmentation fault", .ends⟩,
  ⟨12, "USR2", "User defined signal 2", .ends⟩, ⟨13, "PIPE", "Broken pipe", .ends⟩,
  ⟨14, "ALRM", "Alarm clock", .ends⟩, ⟨15, "TERM", "Terminated", .ends⟩,
  ⟨16, "16", "Stack fault", .ends⟩, ⟨17, "CHLD", "Child exited", .nothing⟩,
  ⟨18, "CONT", "Continued", .nothing⟩, ⟨19, "STOP", "Stopped (signal)", .stops⟩,
  ⟨20, "TSTP", "Stopped", .stops⟩, ⟨21, "TTIN", "Stopped (tty input)", .stops⟩,
  ⟨22, "TTOU", "Stopped (tty output)", .stops⟩, ⟨23, "URG", "Urgent I/O condition", .nothing⟩,
  ⟨24, "XCPU", "CPU time limit exceeded", .ends⟩,
  ⟨25, "XFSZ", "File size limit exceeded", .ends⟩,
  ⟨26, "VTALRM", "Virtual timer expired", .ends⟩,
  ⟨27, "PROF", "Profiling timer expired", .ends⟩, ⟨28, "WINCH", "Window changed", .nothing⟩,
  ⟨29, "IO", "I/O possible", .ends⟩, ⟨30, "PWR", "Power failure", .ends⟩,
  ⟨31, "SYS", "Bad system call", .ends⟩]

/-- The highest number of a signal. -/
def maxNumber : Nat := 64

/-- The signal of a number. Those without names end a process. -/
def ofNumber? (n : Nat) : Option Signal :=
  if n = 0 ∨ maxNumber < n then none
  else some ((all.find? (·.number == n)).getD ⟨n, toString n, s!"Real-time signal {n - 34}", .ends⟩)

/-- The signal that a number or a name in letters of either case stands for. -/
def ofText? (s : String) : Option Signal :=
  match Text.natural? s.toList with
  | some n => ofNumber? n
  | none => all.find? (·.name == Text.upper s)

/-- Whether a process can make provision for the signal. -/
def canBeCaught (s : Signal) : Bool :=
  s.number != 9 && s.number != 19

/-- The exit status that a shell gives to a program that a signal ended. -/
def status (number : Nat) : Nat :=
  128 + number

end Signal

end LintGate
