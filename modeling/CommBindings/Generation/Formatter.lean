import CommBindings.Fault
import CommBindings.Workspace.Path

set_option autoImplicit false

/-! # The formatter

Python files pass through a formatter, a program of its own that may be missing, may refuse a text,
and may end with any exit code. It gets the text and answers with another one, so that nothing is
written when it fails.
-/

namespace CommBindings

/-- How a run of a program ends: it does not start, or it exits with a code and two outputs. -/
inductive ProgramRun where
  | notStarted (reason : String)
  | exited (code : Int) (output errors : String)
  deriving Repr, DecidableEq

/-- A formatter: what it does when asked for its version, and what it does with a text. -/
structure Formatter where
  version : ProgramRun
  format : String → ProgramRun

namespace Formatter

/-- The formatter that leaves every text as it is. -/
def identity : Formatter := ⟨.exited 0 "" "", fun text => .exited 0 text ""⟩

/-- The command that asks for the version, as messages show it. -/
def versionCommand : String := Fault.shownTexts ["black", "--version"]

/-- The names of the signals that can end a program, by their numbers from one on. -/
def signalNames : List String := [
  "SIGHUP", "SIGINT", "SIGQUIT", "SIGILL", "SIGTRAP", "SIGABRT", "SIGBUS", "SIGFPE", "SIGKILL",
  "SIGUSR1", "SIGSEGV", "SIGUSR2", "SIGPIPE", "SIGALRM", "SIGTERM", "SIGSTKFLT", "SIGCHLD",
  "SIGCONT", "SIGSTOP", "SIGTSTP", "SIGTTIN", "SIGTTOU", "SIGURG", "SIGXCPU", "SIGXFSZ",
  "SIGVTALRM", "SIGPROF", "SIGWINCH", "SIGIO", "SIGPWR", "SIGSYS"]

/-- The ends of the range of signals without a meaning of their own. -/
def rangeSignals : List (Nat × String) := [(34, "SIGRTMIN"), (64, "SIGRTMAX")]

/-- The name of a signal. -/
def signalName? (number : Nat) : Option String :=
  match rangeSignals.lookup number with
  | some name => some name
  | none => signalNames[number - 1]?

/-- A signal as messages show it. -/
def shownSignal (number : Nat) : String :=
  match signalName? number with
  | some name => "<Signals." ++ name ++ ": " ++ toString number ++ ">"
  | none => "unknown signal " ++ toString number

/-- Why the formatter is not available when asking for its version ended with a code. A negative
code is that of a signal. -/
def unavailableReason (code : Int) : String :=
  "Command '" ++ versionCommand ++ "' " ++
    (if code < 0 then "died with " ++ shownSignal code.natAbs ++ "."
      else "returned non-zero exit status " ++ toString code ++ ".")

/-- Checks that the formatter can be run. -/
def check (formatter : Formatter) : Except Fault Unit :=
  match formatter.version with
  | .notStarted reason => .error (.formatterUnavailable reason)
  | .exited code _ _ =>
    if code = 0 then .ok () else .error (.formatterUnavailable (unavailableReason code))

/-- The exit code that stands for a formatter that does not start. -/
def notStartedCode : Int := -1

/-- The text of a file after formatting. -/
def run (formatter : Formatter) (path : Path) (text : String) : Except Fault String :=
  match formatter.format text with
  | .notStarted reason => .error (.formatterFailed path.text notStartedCode reason)
  | .exited code output errors =>
    if code = 0 then .ok output else .error (.formatterFailed path.text code errors)

end Formatter

end CommBindings
