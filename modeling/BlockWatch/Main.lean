import BlockWatch.Launch.Round

/-!
# The program

Normative source: SPEC_FULL.md, section 10.1, modules `cli` and `main`:

    `txwatch` binary: argument parsing, logging init, Ctrl+C shutdown

The thin outer layer, and the only module that does input and output.  The node is reached through
the standard streams: each request is one line of the output, and the response to it is the next
line of the input.  The journal goes to the error stream.  The program is interrupted by the end of
its input.

`Program.complete` makes the rounds of one tick (`Setup.round`) and waits for the batch delays
between them.  `Program.loop` waits for the poll interval and starts the next tick.
-/

set_option autoImplicit false

namespace BlockWatch.Program

/-! ## The outside -/

/-- Write the records that are shown. -/
def write (records : List Record) : IO Unit :=
  (records.filter (·.level.isShown)).forM fun record => IO.eprintln record.line

/-- The longest time that is waited at once, in milliseconds. -/
def longestWait : Nat := 0x80000000

/-- Wait for some milliseconds. -/
partial def wait (milliseconds : Nat) : IO Unit := do
  if 0 < milliseconds then
    let now := min milliseconds longestWait
    IO.sleep now.toUInt32
    wait (milliseconds - now)

/-- The content of a file. -/
def content (path : String) : IO (Except Watchlist.FileFault (List UInt8)) := do
  try
    pure (.ok (← IO.FS.readBinFile path).toList)
  catch
    | .noFileOrDirectory _ _ _ => pure (.error .missing)
    | .inappropriateType _ _ _ => pure (.error .directory)
    | fault => pure (.error (.other (toString fault)))

/-- Send a request and take what comes back; there is no result where the input has ended. -/
def exchange (request : Rpc.Request) : IO (Option Rpc.Response) := do
  let output ← IO.getStdout
  output.putStrLn request.text
  output.flush
  let line ← (← IO.getStdin).getLine
  pure (if line.isEmpty then none else some { body := line.toUTF8.toList })

/-! ## The loop -/

/-- Complete a round from the moment `since` in it on; there is no result where the input has
ended. -/
partial def complete (setup : Setup) (since : Nat) (responses : List (Option Rpc.Response)) :
    IO (Option Round) := do
  let round := setup.round responses
  match round.wanted with
  | none => pure (some round)
  | some (time, request) =>
      wait (time - since)
      match ← exchange request with
      | none => pure none
      | some response => complete setup time (responses ++ [some response])

/-- Rest, tick, and start over, until the input ends. -/
partial def loop (setup : Setup) : IO Unit := do
  wait setup.settings.pace.interval
  match ← complete setup 0 [] with
  | none => write Launch.closing
  | some round =>
      write round.records
      loop round.setup

/-- Run with options: the status with which the program ends. -/
def run (options : CommandLine.Options) : IO Nat := do
  let content : Except Watchlist.FileFault (List UInt8) ← match options.watchlist with
    | some path => content path
    | none => pure (.error .missing)
  match Launch.start options fun _ => content with
  | .error explanation =>
      IO.eprint (Launch.failureText explanation)
      pure Launch.failureStatus
  | .ok launch =>
      write launch.records
      loop launch.setup
      pure 0

end BlockWatch.Program

/-- Watch the addresses that the command line names. -/
def main (arguments : List String) : IO UInt32 := do
  match BlockWatch.CommandLine.parse arguments with
  | .error refusal =>
      IO.eprintln refusal.message
      pure (UInt32.ofNat (BlockWatch.Launch.refusalStatus refusal))
  | .ok options => pure (UInt32.ofNat (← BlockWatch.Program.run options))
