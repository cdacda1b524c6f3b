import BlockWatch.Text.Quoted

/-!
# Failures

Normative source: SPEC_FULL.md, section 7 and section 10.2:

    Variants: `BadFormat(input)`, ... (prefix present but digits unparseable or overflow i64),
    `BlockNotFound(number)`, `TxNotFound(hash)`, `AddressNotFound(address)`, `Rpc { op, source }`
    (opaque upstream error wrapped with the RPC method name), `Consistency(detail)`, `Task(detail)`
    (a resolution task panicked or was aborted), `MissingField(name)`

`Failure` has one constructor for each variant and `Failure.message` its text.  `DigitFault` is the
reason why digits cannot be read.  An `Explanation` is an error that is told in words: a text, and
below it the texts of its causes, of which `Explanation.report` makes the report that the program
prints.

`Failure.taskCrashed` is the `Task` variant without its detail.  The detail is the description of a
panic, which only the task that panicked knows; no statement depends on it.
-/

set_option autoImplicit false

namespace BlockWatch

/-! ## Explanations -/

/-- A failure told in words. -/
structure Explanation where
  /-- what went wrong, the outermost text -/
  message : String
  /-- what caused it, outermost first -/
  causes : List String := []
  deriving DecidableEq, Repr, Inhabited

namespace Explanation

/-- Put a context around an explanation: the context is the new outermost text. -/
def within (context : String) (e : Explanation) : Explanation :=
  ⟨context, e.message :: e.causes⟩

/-- One text of a report: `lead` before its first line, `margin` before every other one. -/
def indented (lead margin text : String) : String :=
  lead ++ String.ofList (text.toList.flatMap fun c => if c = '\n' then c :: margin.toList else [c])

/-- The numbered lines for several causes, the first one numbered `n`. -/
def numberedCauses (n : Nat) : List String → String
  | [] => ""
  | cause :: rest =>
      let number := toString n
      let lead := String.ofList (List.replicate (5 - number.length) ' ') ++ number ++ ": "
      "\n" ++ indented lead "       " cause ++ numberedCauses (n + 1) rest

/-- The report of a failure that ends the program: the message, then the causes; several causes
are numbered from zero. -/
def report (e : Explanation) : String :=
  match e.causes with
  | [] => e.message
  | [cause] => e.message ++ "\n\nCaused by:\n" ++ indented "    " "    " cause
  | causes => e.message ++ "\n\nCaused by:" ++ numberedCauses 0 causes

end Explanation

/-! ## Failures -/

/-- Why the digits of a quantity were refused. -/
inductive DigitFault where
  /-- there are no digits at all -/
  | empty
  /-- something that is no hexadecimal digit -/
  | invalidDigit
  /-- the value read so far is above the largest number -/
  | tooLarge
  /-- the value read so far is below the smallest number -/
  | tooSmall
  deriving DecidableEq, Repr, Inhabited

/-- The wording of a refusal of digits. -/
def DigitFault.message : DigitFault → String
  | .empty => "cannot parse integer from empty string"
  | .invalidDigit => "invalid digit found in string"
  | .tooLarge => "number too large to fit in target type"
  | .tooSmall => "number too small to fit in target type"

/-- What can go wrong while blocks are watched.  The failures of a look-up carry the key that was
looked for. -/
inductive Failure where
  /-- a quantity without its `0x` in front -/
  | badFormat (text : String)
  /-- a quantity whose digits were refused -/
  | invalidHex (text : String) (fault : DigitFault)
  /-- no such block in the cache -/
  | blockNotFound (number : String)
  /-- no such transaction in the cache -/
  | transactionNotFound (hash : String)
  /-- no such address among the subscriptions -/
  | addressNotFound (address : String)
  /-- a request to the node failed -/
  | rpc (method : String) (cause : Explanation)
  /-- the cache contradicts what the watcher relies on -/
  | consistency (text : String)
  /-- the task that resolved a transaction crashed -/
  | taskCrashed
  /-- a setting that has no default was not given -/
  | missingField (name : String)
  deriving DecidableEq, Repr, Inhabited

namespace Failure

/-- The wording of a failure. -/
def message : Failure → String
  | badFormat text => "invalid string format, expected '0x' prefix: " ++ Text.quoted text
  | invalidHex text fault =>
      "could not parse hex value " ++ Text.quoted text ++ ": " ++ fault.message
  | blockNotFound number => "block " ++ number ++ " not found"
  | transactionNotFound hash => "transaction " ++ hash ++ " not found"
  | addressNotFound address => "address " ++ address ++ " not subscribed"
  | rpc method cause => method ++ " failed: " ++ cause.message
  | consistency text => "cache consistency violated: " ++ text
  | taskCrashed => "resolution task failed"
  | missingField name => "missing field: " ++ name

/-- The texts of what caused a failure, outermost first. -/
def causes : Failure → List String
  | invalidHex _ fault => [fault.message]
  | rpc _ cause => cause.message :: cause.causes
  | _ => []

/-- Whether a failure says that a key is absent. -/
def isNotFound : Failure → Bool
  | blockNotFound _ | transactionNotFound _ | addressNotFound _ => true
  | _ => false

/-- A failure told in words. -/
def explain (failure : Failure) : Explanation := ⟨failure.message, failure.causes⟩

end Failure

/-! ## Results -/

/-- A chain of computations succeeds exactly if its first part and the rest do. -/
theorem bind_eq_ok_iff {ε α β : Type} {first : Except ε α} {rest : α → Except ε β} {b : β} :
    first >>= rest = .ok b ↔ ∃ a, first = .ok a ∧ rest a = .ok b := by
  constructor
  · intro h
    cases first with
    | error e => cases h
    | ok a => exact ⟨a, rfl, h⟩
  · rintro ⟨a, rfl, h⟩
    exact h

end BlockWatch
