import ReplayVector.Machine

/-!
# The command

Reads the arguments, runs the program on this machine, and says how that went: the exit code is 0
for a vector, 1 for a failure, and 2 for arguments that do not say what to do.
-/

open ReplayVector

def main (args : List String) : IO UInt32 := do
  match CommandLine.parse (← IO.getEnv "FULLNODE_API_INFO") args with
  | .error refusal =>
    if refusal.exitCode = 0 then IO.println refusal.message else IO.eprintln refusal.message
    return refusal.exitCode.toUInt32
  | .ok command =>
    let program : Program IO := {
      network := Machine.network
      output := Machine.output
      cancelled := ← Machine.watchInterrupts }
    match ← program.run command with
    | .ok extraction =>
      if extraction.receiptCheck = .skipped then
        IO.eprintln "warning: the vector's receipt was not checked against the chain"
      return 0
    | .error fault =>
      IO.eprintln s!"Error: {fault.message}"
      return 1
