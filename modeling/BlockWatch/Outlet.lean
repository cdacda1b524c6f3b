import BlockWatch.Journal
import BlockWatch.Payload

/-!
# Outlets

Normative source: SPEC_FULL.md, section 10.6:

    `LogNotifier` logs one line per transaction (and a debug line for empty heartbeats).

    a closed receiver is logged and ignored. This is the seam a push server would consume.

An outlet is one of the two notifiers of module `notifier`: the journal, or a channel with or
without its receiver.  `Outlet.deliver` is `Notifier::notify`.  It answers at once, with what comes
out of the channel and what is logged.  A channel that has lost its receiver never gets it back.
-/

set_option autoImplicit false

namespace BlockWatch

/-- Where notifications go. -/
inductive Outlet where
  /-- into the journal -/
  | journal
  /-- into a channel, and whether it still has its receiver -/
  | channel (receiving : Bool)
  deriving DecidableEq, Repr, Inhabited

/-- What a delivery leads to: the notifications that come out of a channel, and records. -/
structure Delivery where
  received : List Notification := []
  records : List Record := []
  deriving Repr, Inhabited

namespace Outlet

/-- How the journal calls the recipient of a transaction that creates a contract. -/
def creation : String := "<create>"

/-- The record of one transaction in a notification. -/
def transactionRecord (address : String) (transaction : Transaction) : Record :=
  { level := .info
    message := "notification: got tx"
    fields :=
      [("address", address), ("hash", transaction.hash), ("from", transaction.sender),
       ("to", transaction.recipient.getD creation)] }

/-- The records of a notification that goes into the journal. -/
def journalRecords (notification : Notification) : List Record :=
  match notification.transactions with
  | [] => [⟨.debug, "no activity in block", [("address", notification.address)]⟩]
  | transactions => transactions.map (transactionRecord notification.address)

/-- Deliver a notification. -/
def deliver (outlet : Outlet) (notification : Notification) : Delivery :=
  match outlet with
  | .journal => { records := journalRecords notification }
  | .channel true => { received := [notification] }
  | .channel false =>
      { records :=
          [⟨.warn, "notification receiver dropped", [("address", notification.address)]⟩] }

/-- The outlet after its receiver is gone. -/
def dropReceiver : Outlet → Outlet
  | .journal => .journal
  | .channel _ => .channel false

end Outlet

end BlockWatch
