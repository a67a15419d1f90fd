/-!
# Log lines

A log line may hold names from the files under check. A control character in it that a terminal
would take for a command is written by its number; line ends and tabs stay.
-/

namespace PoolLint.Report

/-- The control characters of ASCII that begin or are a command to a terminal. -/
def terminalControls : List Char :=
  ['\x07', '\x08', '\x0c', '\x1b', '\x7f']

/-- One character of a log line. -/
def logChar (c : Char) : List Char :=
  if c ∈ terminalControls then
    ['\\', 'x'] ++ (if c.toNat < 16 then ['0'] else []) ++ Nat.toDigits 16 c.toNat
  else if 0x80 ≤ c.toNat && c.toNat ≤ 0x9f then
    ['\\', 'u', '\x7b'] ++ Nat.toDigits 16 c.toNat ++ ['\x7d']
  else [c]

/-- A text as a log line shows it. -/
def logLine (s : String) : String :=
  String.ofList (s.toList.flatMap logChar)

end PoolLint.Report
