/-!
# Journal records

Normative source: SPEC_FULL.md, section 10.3:

    block numbers / hashes / addresses logged as structured fields or inline format args.

A record has a level, a message and named fields, as the logging macros of the program write them.
`Level.isShown` is the default filter of the binary, which shows everything from `info` on.

Of what a watcher logs, the records of failures, of new subscriptions and of notifications are
modelled.  The records of its progress are left out: a new head, a block that is begun, obtained or
done, an address that is unsubscribed, a loop that starts or stops, and what is only of use for
debugging.
-/

set_option autoImplicit false

namespace BlockWatch

/-- How much a record matters. -/
inductive Level where
  | debug
  | info
  | warn
  | error
  deriving DecidableEq, Repr, Inhabited

/-- One record of the journal. -/
structure Record where
  level : Level
  message : String
  fields : List (String × String) := []
  deriving DecidableEq, Repr, Inhabited

/-- The name of a level. -/
def Level.name : Level → String
  | .debug => "DEBUG"
  | .info => "INFO"
  | .warn => "WARN"
  | .error => "ERROR"

/-- Whether records of a level are shown. -/
def Level.isShown : Level → Bool
  | .debug => false
  | _ => true

/-- A record in one line: its level, its message, and its fields. -/
def Record.line (record : Record) : String :=
  String.intercalate " "
    (record.level.name :: record.message ::
      record.fields.map fun (name, value) => name ++ "=" ++ value)

end BlockWatch
