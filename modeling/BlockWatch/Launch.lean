import BlockWatch.CommandLine
import BlockWatch.Rpc.Client
import BlockWatch.Watcher

/-!
# Launching

Normative source: SPEC_FULL.md, section 10.1, modules `cli` and `main`:

    `txwatch` binary: argument parsing, logging init, Ctrl+C shutdown

`Launch.start` leads from options to a `Setup`, which is a watcher with its client and its cache
that is about to start its loop: the addresses are found, the client is made, and every address is
subscribed.  The content of the watchlist file is an argument, so that this is a function.  A launch
that fails gives the status with which the program ends and the text it prints (`refusalStatus`,
`failureStatus`, `failureText`).

The loop itself is in `Launch.Round` and `Main`, since it has to wait for the node.
-/

set_option autoImplicit false

namespace BlockWatch

/-- A watcher that was set up with normalized settings, and its client. -/
structure Setup where
  settings : Settings
  client : Rpc.Client
  watcher : Watcher
  cache : Cache

/-- Set a watcher up; the address of the node has to be given. -/
def Setup.new (settings : Settings) (outlet : Outlet) : Except Failure Setup := do
  let settings := settings.normalized
  let client ← Rpc.Client.new settings.endpoint
  pure { settings, client, watcher := { outlet }, cache := .empty }

/-- What a launch came to: the set-up as it enters the loop, and what was written so far. -/
structure Launch where
  setup : Setup
  records : List Record

namespace Launch

/-- A record without fields. -/
def plainRecord (message : String) : Record := { level := .info, message }

/-- The records written when an interrupted program ends. -/
def closing : List Record :=
  [plainRecord "Received Ctrl+C, shutting down gracefully...", plainRecord "Watcher stopped"]

/-- Launch with options.  What goes wrong ends the launch before anything is written. -/
def start (options : CommandLine.Options)
    (content : String → Except Watchlist.FileFault (List UInt8)) :
    Except Explanation Launch := do
  let addresses ← options.watched content
  match Setup.new options.settings .journal with
  | .error failure => .error (failure.explain.within "Failed to initialize watcher")
  | .ok setup =>
      let (subscribed, watcher, cache) := setup.watcher.subscribeAll setup.cache addresses
      pure
        { setup := { setup with watcher, cache }
          records :=
            [plainRecord "Starting transaction watcher",
              plainRecord ("RPC URL: " ++ setup.settings.endpoint)] ++ subscribed ++
            [plainRecord ("Watching " ++ toString watcher.subscriptions.length ++ " addresses")] }

/-- The status with which a program ends that refuses its command line. -/
def refusalStatus : CommandLine.Refusal → Nat
  | .helpWanted => 0
  | _ => 2

/-- The status with which a program ends that cannot be launched. -/
def failureStatus : Nat := 1

/-- What a program that cannot be launched says last. -/
def failureText (explanation : Explanation) : String := "Error: " ++ explanation.report ++ "\n"

end Launch

end BlockWatch
