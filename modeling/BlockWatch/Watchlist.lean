import BlockWatch.Address
import BlockWatch.Failure
import BlockWatch.Roster
import BlockWatch.Text.Blank

/-!
# Watchlists

Normative source: SPEC_FULL.md, section 10.4:

    `load_watchlist(path)`: one address per line, `#` comments and blank lines ignored, each entry
    validated with `is_address` and normalized; an empty list is an error.

`Watchlist.load` models `load_watchlist`.  The content of the file is an argument, as bytes or as
the fault of the file system.  Blanks around a line do not count.  The first line that is no address
makes the whole list invalid, with its number and its text in the message.  Addresses are returned
in canonical spelling and in file order, each at its first place only.
-/

set_option autoImplicit false

namespace BlockWatch.Watchlist

/-- Why a watchlist is invalid. -/
inductive Refusal where
  /-- a line that is no address, by its number in the file and its trimmed text -/
  | invalidLine (number : Nat) (text : String)
  /-- no address at all -/
  | empty
  deriving DecidableEq, Repr, Inhabited

/-- The wording of a refusal. -/
def Refusal.message : Refusal → String
  | .invalidLine number text => "Invalid address on line " ++ toString number ++ ": " ++ text
  | .empty => "Watchlist is empty (no valid addresses found)"

/-- Whether a trimmed line says nothing. -/
def isSilent : List Char → Bool
  | [] => true
  | c :: _ => c = '#'

/-- The trimmed lines that say something, each with its number in the text, counted from one. -/
def entries (text : List Char) : List (Nat × String) :=
  ((Text.lines text).zipIdx 1).filterMap fun (line, number) =>
    let trimmed := Text.trim line
    if isSilent trimmed then none else some (number, String.ofList trimmed)

/-- Add the addresses of entries to a roster, in canonical spelling, up to the first entry that
is no address. -/
def collect (roster : List String) : List (Nat × String) → Except Refusal (List String)
  | [] => .ok roster
  | (number, text) :: rest =>
      if Address.isValid text then collect (Roster.add roster (Address.canonical text)) rest
      else .error (.invalidLine number text)

/-- Read a watchlist: the canonical addresses in file order, each at its first place only. -/
def read (text : List Char) : Except Refusal (List String) :=
  match collect [] (entries text) with
  | .ok [] => .error .empty
  | result => result

/-! ## Watchlists in files -/

/-- Why a file gave no text. -/
inductive FileFault where
  /-- there is no such file -/
  | missing
  /-- the path names a directory -/
  | directory
  /-- the content is no UTF-8 -/
  | notText
  /-- another reason, in the words of the system -/
  | other (text : String)
  deriving DecidableEq, Repr, Inhabited

/-- The wording of a fault. -/
def FileFault.message : FileFault → String
  | .missing => "No such file or directory (os error 2)"
  | .directory => "Is a directory (os error 21)"
  | .notText => "stream did not contain valid UTF-8"
  | .other text => text

/-- The text that bytes encode. -/
def decodeText (bytes : List UInt8) : Except FileFault String :=
  match String.fromUTF8? ⟨bytes.toArray⟩ with
  | some text => .ok text
  | none => .error .notText

/-- Load the watchlist in a file with this path and content. -/
def load (path : String) (content : Except FileFault (List UInt8)) :
    Except Explanation (List String) :=
  match content.bind decodeText with
  | .error fault =>
      .error ⟨"Failed to read watchlist file: " ++ Text.quoted path, [fault.message]⟩
  | .ok text =>
      match read text.toList with
      | .ok addresses => .ok addresses
      | .error refusal => .error ⟨refusal.message, []⟩

end BlockWatch.Watchlist
