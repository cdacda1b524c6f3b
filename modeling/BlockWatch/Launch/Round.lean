import BlockWatch.Launch
import BlockWatch.Node.Replay
import BlockWatch.Shift.Loop

/-!
# Rounds

Normative source: SPEC_FULL.md, section 10.7:

    `tick()`: one poll iteration (check + process) with errors logged.

A tick is a function of the answers of the node, and the program has to send the requests itself.
It therefore does a tick in rounds.  `Setup.round` is one tick of a launched watcher with the
responses that have come back for it so far, through `Replay.node`, together with the tasks that the
tick queues.  A round that wants a request names it, with its time in the tick; a round that wants
nothing is complete, and its set-up is that of the next tick.

`BlockWatch.Proofs.Launch.Rounds` shows that the rounds with a server are one tick at that server.
-/

set_option autoImplicit false

namespace BlockWatch

/-- What a tick came to. -/
structure Round where
  /-- the set-up after the tick -/
  setup : Setup
  /-- the request to send before the tick can be done again, and its time in the tick -/
  wanted : Option (Nat × Rpc.Request)
  /-- what the tick wrote -/
  records : List Record

namespace Round

/-- The request for the first question that has no response, from what was observed, oldest
first. -/
def wantedOf (client : Rpc.Client) (answered : Nat) (events : List Event) :
    Option (Nat × Rpc.Request) :=
  (events.filterMap Event.ask?)[answered]?.map fun (time, ask) =>
    (time, ⟨client.nextId + UInt64.ofNat answered, ask⟩)

end Round

/-- Tick with the responses that have come back, and run what the tick has queued. -/
def Setup.ticked (setup : Setup) (responses : List (Option Rpc.Response)) : Shift Replay Empty :=
  let shift : Shift Replay Empty :=
    { node := { client := setup.client, responses }, cache := setup.cache
      watcher := setup.watcher }
  (shift.tick Replay.node setup.settings.pace).settle

/-- What such a tick came to. -/
def Setup.round (setup : Setup) (responses : List (Option Rpc.Response)) : Round :=
  let ticked := setup.ticked responses
  let events := ticked.history.reverse
  { setup :=
      { setup with
        client := ticked.node.client
        watcher := ticked.watcher
        cache := ticked.cache }
    wanted := Round.wantedOf setup.client responses.length events
    records := events.filterMap Event.record? }

end BlockWatch
