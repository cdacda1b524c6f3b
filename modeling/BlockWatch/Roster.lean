/-!
# Rosters

Normative source: SPEC_FULL.md, section 4.2:

    `Subscribe(address)`: idempotent add to the unique ordered set.
    `Unsubscribe(address) -> () | NotFound` if absent.

A roster is that unique ordered set: a list of addresses without repetition, in the order in which
they were added.  An address that is removed and added again comes last.  The watcher and the cache
have one each, and a watchlist is read into one.
-/

set_option autoImplicit false

namespace BlockWatch.Roster

/-- Add an address unless it is there. -/
def add (roster : List String) (address : String) : List String :=
  if roster.contains address then roster else roster ++ [address]

/-- The roster without an address that is there. -/
def remove? (roster : List String) (address : String) : Option (List String) :=
  if roster.contains address then some (roster.erase address) else none

/-- The addresses of a list, each at its first place only. -/
def ofList (addresses : List String) : List String := addresses.foldl add []

end BlockWatch.Roster
