/-
Signals: their numbers and names, what each does to a process that makes no
provision for it, and how the end of such a process is told.
-/
import SiteScaffold.Shell.Arithmetic

namespace SiteScaffold.Shell

namespace Signal

/-- The names of the signals from the first one on. -/
def names : List Raw :=
  (["HUP", "INT", "QUIT", "ILL", "TRAP", "ABRT", "BUS", "FPE", "KILL", "USR1", "SEGV", "USR2",
    "PIPE", "ALRM", "TERM", "STKFLT", "CHLD", "CONT", "STOP", "TSTP", "TTIN", "TTOU", "URG", "XCPU",
    "XFSZ", "VTALRM", "PROF", "WINCH", "IO", "PWR", "SYS"] : List String).map String.toList

/-- The first number beyond the signals. -/
def limit : Nat := 65

/-- The name of a signal; the end of a shell counts as the signal zero. -/
def name (signal : Nat) : Raw :=
  match signal with
  | 0 => "EXIT"
  | n + 1 => names[n]?.getD (Text.ofNat signal)

/-- The signal a word tells by number or by name. -/
def ofWord? (word : Raw) : Option Nat :=
  if word ≠ [] && word.all Char.isDigit then
    let n := Arithmetic.value 10 word
    if n < limit then some n else none
  else
    let upper := word.map Char.toUpper
    if upper = "EXIT" then some 0
    else (names.findIdx? (· = upper)).map (· + 1)

/-- Whether a signal does nothing to a process that makes no provision for it. -/
def isHarmless (signal : Nat) : Bool := signal ∈ [0, 17, 18, 19, 20, 21, 22, 23, 28]

/-- How the end by a signal is told, unless it is not told. -/
def described? (signal : Nat) : Option Raw :=
  match signal with
  | 2 | 13 => none
  | 1 => some "Hangup"
  | 3 => some "Quit"
  | 4 => some "Illegal instruction"
  | 5 => some "Trace/breakpoint trap"
  | 6 => some "Aborted"
  | 7 => some "Bus error"
  | 8 => some "Floating point exception"
  | 9 => some "Killed"
  | 10 => some "User defined signal 1"
  | 11 => some "Segmentation fault"
  | 12 => some "User defined signal 2"
  | 14 => some "Alarm clock"
  | 15 => some "Terminated"
  | 16 => some "Stack fault"
  | 24 => some "CPU time limit exceeded"
  | 25 => some "File size limit exceeded"
  | 26 => some "Virtual timer expired"
  | 27 => some "Profiling timer expired"
  | 29 => some "I/O possible"
  | 30 => some "Power failure"
  | 31 => some "Bad system call"
  | n => some ("Unknown signal " ++ Text.ofNat n)

end Signal

end SiteScaffold.Shell
