import BlockWatch.Payload
import BlockWatch.Text.Quoted

/-!
# Reading payloads

Normative source: SPEC_FULL.md, section 10.1, module `types`, and section 3:

    `{ hash, from: Address, to: optional Address, ...remaining opaque RPC fields carried through
    unchanged }`

From a JSON value to a payload, or to the reason why the value is none (`Misfit`).  The rules are
those of derived readers.  Members are looked at in ascending order of their keys, and the first one
of the wrong kind is the reason; only when there is none does a missing member count.  The recipient
of a transaction may be absent or null, and the transactions of a block may be absent.  Members that
are not known are skipped, except for a transaction, which keeps them.  A block or a notification
may also be given as the list of its fields; a transaction, which has members of any name, may not.
-/

set_option autoImplicit false

namespace BlockWatch

/-! ## Misfits -/

/-- What was wanted in place of a value. -/
inductive Wanted where
  | text
  | list
  | block
  | transaction
  | notification
  deriving DecidableEq, Repr, Inhabited

/-- How messages call what was wanted. -/
def Wanted.description : Wanted → String
  | .text => "a string"
  | .list => "a sequence"
  | .block => "struct Block"
  | .transaction => "struct Transaction"
  | .notification => "struct Notification"

/-- Why a JSON value is no payload. -/
inductive Misfit where
  /-- a value of another kind than the wanted one -/
  | wrongKind (found : Json) (wanted : Wanted)
  /-- a member that has to be there is not -/
  | missingMember (key : String)
  /-- a list of fields that ends too early -/
  | tooFew (length : Nat) (wanted : Wanted)
  /-- a list of fields that goes on too long -/
  | tooMany (length : Nat)
  deriving Repr, Inhabited

/-- How messages call a value that was found. -/
def Json.description : Json → String
  | .null => "null"
  | .bool b => "boolean \u0060" ++ (if b then "true" else "false") ++ "\u0060"
  | .number (.int n) => "integer \u0060" ++ (JsonNumber.int n).text ++ "\u0060"
  | .number (.float d) => "floating point \u0060" ++ (JsonNumber.float d).text ++ "\u0060"
  | .string s => "string " ++ Text.quoted s
  | .array _ => "sequence"
  | .object _ => "map"

/-- The number of fields in a list form. -/
def fieldCount : Nat := 2

/-- The wording of a misfit. -/
def Misfit.message : Misfit → String
  | .wrongKind found wanted =>
      "invalid type: " ++ found.description ++ ", expected " ++ wanted.description
  | .missingMember key => "missing field \u0060" ++ key ++ "\u0060"
  | .tooFew length wanted =>
      "invalid length " ++ toString length ++ ", expected " ++ wanted.description ++ " with " ++
        toString fieldCount ++ " elements"
  | .tooMany length =>
      "invalid length " ++ toString length ++ ", expected fewer elements in array"

/-! ## Parts -/

/-- A text. -/
def readText : Json → Except Misfit String
  | .string s => .ok s
  | other => .error (.wrongKind other .text)

/-- A text, or nothing for null. -/
def readText? : Json → Except Misfit (Option String)
  | .null => .ok none
  | .string s => .ok (some s)
  | other => .error (.wrongKind other .text)

/-- Read every item of a list, in order. -/
def readEach {α : Type} (read : Json → Except Misfit α) : List Json → Except Misfit (List α)
  | [] => .ok []
  | item :: rest => do
      let first ← read item
      let others ← readEach read rest
      pure (first :: others)

/-- A list, every item of which is read. -/
def readList {α : Type} (read : Json → Except Misfit α) : Json → Except Misfit (List α)
  | .array items => readEach read items
  | other => .error (.wrongKind other .list)

/-- Read the member under a key, if there is one. -/
def readMember? {α : Type} (members : List (String × Json)) (key : String)
    (read : Json → Except Misfit α) : Except Misfit (Option α) :=
  match members.lookup key with
  | none => .ok none
  | some value => (read value).map some

/-- A member that has to be there. -/
def required {α : Type} (key : String) : Option α → Except Misfit α
  | some value => .ok value
  | none => .error (.missingMember key)

/-! ## Payloads -/

/-- Read a block. -/
def Block.ofJson : Json → Except Misfit Block
  | .object members => do
      let hash ← readMember? members "hash" readText
      let transactions ← readMember? members "transactions" (readList readText)
      pure ⟨← required "hash" hash, transactions.getD []⟩
  | .array [] => .error (.tooFew 0 .block)
  | .array [hash] => do pure ⟨← readText hash, []⟩
  | .array (hash :: transactions :: rest) => do
      let hash ← readText hash
      let transactions ← readList readText transactions
      if rest.isEmpty then pure ⟨hash, transactions⟩
      else .error (.tooMany (rest.length + fieldCount))
  | other => .error (.wrongKind other .block)

/-- Read a transaction; it has no list form. -/
def Transaction.ofJson : Json → Except Misfit Transaction
  | .object members => do
      let sender ← readMember? members "from" readText
      let hash ← readMember? members "hash" readText
      let recipient ← readMember? members "to" readText?
      let hash ← required "hash" hash
      let sender ← required "from" sender
      pure
        { hash, sender, recipient := recipient.getD none
          extra := members.filter fun member => !Transaction.ownKeys.contains member.1 }
  | other => .error (.wrongKind other .transaction)

/-- Read a notification. -/
def Notification.ofJson : Json → Except Misfit Notification
  | .object members => do
      let address ← readMember? members "address" readText
      let transactions ← readMember? members "txs" (readList Transaction.ofJson)
      pure ⟨← required "address" address, ← required "txs" transactions⟩
  | .array [] => .error (.tooFew 0 .notification)
  | .array [address] => do
      let _ ← readText address
      .error (.tooFew 1 .notification)
  | .array (address :: transactions :: rest) => do
      let address ← readText address
      let transactions ← readList Transaction.ofJson transactions
      if rest.isEmpty then pure ⟨address, transactions⟩
      else .error (.tooMany (rest.length + fieldCount))
  | other => .error (.wrongKind other .notification)

end BlockWatch
