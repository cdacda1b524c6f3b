import BlockWatch.Settings
import BlockWatch.Watchlist

/-!
# The command line

Normative source: SPEC_FULL.md, section 10.4:

    `--rpc-url`, `--interval` (secs), `--batch-size`, `--batch-delay-ms`, `--rpc-timeout` (secs),
    repeatable `--address`, optional `--watchlist` file. At least one address is required.

`CommandLine.parse` reads the arguments of module `cli` into `Options`, or into the `Refusal` that
ends the program.  Options have a long name, some a short one too, and all but the request for help
take a value: after an equals sign, right behind a short name, or as the next argument.  A value is
looked at when the next option comes or the command line ends, so an argument that belongs to no
option is found first.  Only addresses may be given more than once.

`Options.watched` collects the addresses to watch, from the options and from the watchlist file.  An
invalid address on the command line is found before the file is looked at.

Which refusal there is, and the status that the program ends with, are those of `cli`.  The messages
of refusals are shortened: they do not name the argument.
-/

set_option autoImplicit false

namespace BlockWatch.CommandLine

/-! ## Options -/

/-- The name of an option. -/
inductive Name where
  | endpoint
  | interval
  | batchSize
  | batchDelay
  | timeout
  | address
  | watchlist
  | help
  deriving DecidableEq, Repr, Inhabited

namespace Name

/-- Find an option by its long name. -/
def ofLong? (text : String) : Option Name :=
  match text with
  | "rpc-url" => some endpoint
  | "interval" => some interval
  | "batch-size" => some batchSize
  | "batch-delay-ms" => some batchDelay
  | "rpc-timeout" => some timeout
  | "address" => some address
  | "watchlist" => some watchlist
  | "help" => some help
  | _ => none

/-- Find an option by its short name. -/
def ofShort? : Char → Option Name
  | 'r' => some endpoint
  | 'i' => some interval
  | 'a' => some address
  | 'w' => some watchlist
  | 'h' => some help
  | _ => none

end Name

/-- What a command line asks for. -/
structure Options where
  endpoint : String := "http://127.0.0.1:8545"
  /-- seconds between ticks -/
  interval : Nat := 15
  batchSize : Nat := 25
  /-- milliseconds between batches -/
  batchDelay : Nat := 2000
  /-- seconds that a request may take -/
  timeout : Nat := 30
  /-- the addresses to subscribe, as they were given -/
  addresses : List String := []
  /-- the path of a watchlist -/
  watchlist : Option String := none
  deriving DecidableEq, Repr, Inhabited

/-- The settings that options ask for. -/
def Options.settings (options : Options) : Settings where
  endpoint := options.endpoint
  interval := 1000 * options.interval
  batchSize := options.batchSize
  batchDelay := options.batchDelay
  timeout := 1000 * options.timeout

/-- Why a command line is not taken. -/
inductive Refusal where
  /-- help was asked for -/
  | helpWanted
  /-- an argument that belongs to no option -/
  | unknownArgument
  /-- an option without the value that it needs -/
  | missingValue
  /-- a value that is no number -/
  | badNumber
  /-- an option that may be given once only -/
  | repeatedOption
  /-- a value for an option that takes none -/
  | unwantedValue
  deriving DecidableEq, Repr, Inhabited

/-- How the program is called. -/
def usage : String :=
  String.intercalate "\n"
    ["Usage: blockwatch [OPTIONS]", "", "Options:",
      "  -r, --rpc-url <URL>", "  -i, --interval <SECONDS>", "      --batch-size <COUNT>",
      "      --batch-delay-ms <MILLISECONDS>", "      --rpc-timeout <SECONDS>",
      "  -a, --address <ADDRESS>", "  -w, --watchlist <FILE>", "  -h, --help"]

/-- The wording of a refusal. -/
def Refusal.message : Refusal → String
  | .helpWanted => usage
  | .unknownArgument => "unexpected argument"
  | .missingValue => "an option needs a value"
  | .badNumber => "a value is no number"
  | .repeatedOption => "an option is given more than once"
  | .unwantedValue => "an option takes no value"

/-! ## Values -/

/-- The largest number that is taken. -/
def maxNumber : Nat := 0xffffffffffffffff

/-- Read a number: decimal digits, which may have a plus sign in front. -/
def readNumber (value : String) : Except Refusal Nat :=
  let digits := match value.toList with
    | '+' :: digits => digits
    | digits => digits
  let number := digits.foldl (fun n c => 10 * n + (c.toNat - '0'.toNat)) 0
  if digits.isEmpty || !digits.all Char.isDigit || maxNumber < number then .error .badNumber
  else .ok number

/-- What has been read of a command line. -/
structure Reading where
  options : Options := {}
  /-- the options that were given and may be given once only -/
  given : List Name := []
  /-- the option whose value has not been looked at, and its value if that has come -/
  waiting : Option (Name × Option String) := none
  deriving Repr, Inhabited

namespace Reading

/-- Take the value of an option into the options. -/
def store (options : Options) (name : Name) (value : String) : Except Refusal Options :=
  match name with
  | .endpoint => .ok { options with endpoint := value }
  | .interval => (readNumber value).map fun interval => { options with interval }
  | .batchSize => (readNumber value).map fun batchSize => { options with batchSize }
  | .batchDelay => (readNumber value).map fun batchDelay => { options with batchDelay }
  | .timeout => (readNumber value).map fun timeout => { options with timeout }
  | .address => .ok { options with addresses := options.addresses ++ [value] }
  | .watchlist =>
      if value.isEmpty then .error .missingValue else .ok { options with watchlist := some value }
  | .help => .error .helpWanted

/-- Take an option with its value. -/
def accept (reading : Reading) (name : Name) (value : String) : Except Refusal Reading :=
  if reading.given.contains name then .error .repeatedOption
  else do
    let options ← store reading.options name value
    let given := if name = .address then reading.given else name :: reading.given
    pure { reading with options, given }

/-- Look at the value of the option that waits for it, if there is one. -/
def settle (reading : Reading) : Except Refusal Reading :=
  match reading.waiting with
  | none => .ok reading
  | some (_, none) => .error .missingValue
  | some (name, some value) => { reading with waiting := none }.accept name value

/-- Take an option, and its value if that came in the same argument. -/
def open? (reading : Reading) (name : Name) (value : Option String) : Except Refusal Reading := do
  let settled ← reading.settle
  if name = .help then .error .helpWanted
  else
    match value with
    | some value => settled.accept name value
    | none => pure { settled with waiting := some (name, none) }

/-- Take an argument that starts with two dashes, which are left out here. -/
def takeLong (reading : Reading) (argument : List Char) : Except Refusal Reading :=
  let name := String.ofList (argument.takeWhile (· ≠ '='))
  let value := match argument.dropWhile (· ≠ '=') with
    | _ :: value => some (String.ofList value)
    | [] => none
  match Name.ofLong? name with
  | none => .error .unknownArgument
  | some .help => if value.isSome then .error .unwantedValue else reading.open? .help none
  | some name => reading.open? name value

/-- Take an argument that starts with one dash, which is left out here, as is the short name
after it. -/
def takeShort (reading : Reading) (short : Char) (attached : List Char) :
    Except Refusal Reading :=
  match Name.ofShort? short with
  | none => .error .unknownArgument
  | some name =>
      let value := match attached with
        | [] => none
        | '=' :: value => some (String.ofList value)
        | value => some (String.ofList value)
      reading.open? name value

/-- Take an argument that is no option: the value of the option that waits for one. -/
def takePlain (reading : Reading) (argument : String) : Except Refusal Reading :=
  match reading.waiting with
  | some (name, none) => .ok { reading with waiting := some (name, some argument) }
  | _ => .error .unknownArgument

/-- Take one argument. -/
def take (reading : Reading) (argument : String) : Except Refusal Reading :=
  match argument.toList with
  | '-' :: '-' :: rest => reading.takeLong rest
  | '-' :: short :: attached => reading.takeShort short attached
  | _ => reading.takePlain argument

/-- Take arguments.  After two dashes alone there are no more options, and nothing else may
follow. -/
def takeAll (reading : Reading) : List String → Except Refusal Reading
  | [] => .ok reading
  | "--" :: rest => if rest.isEmpty then .ok reading else .error .unknownArgument
  | argument :: rest => do
      let next ← reading.take argument
      next.takeAll rest

end Reading

/-- Read a command line. -/
def parse (arguments : List String) : Except Refusal Options := do
  let reading ← ({} : Reading).takeAll arguments
  let settled ← reading.settle
  pure settled.options

/-! ## Addresses -/

/-- The first text that is no address. -/
def firstInvalid? (addresses : List String) : Option String :=
  addresses.find? fun address => !Address.isValid address

/-- The addresses to subscribe: those given as they are, then those of the watchlist.  The
content of a file is looked at only if every address given is one. -/
def Options.watched (options : Options)
    (content : String → Except Watchlist.FileFault (List UInt8)) :
    Except Explanation (List String) :=
  match firstInvalid? options.addresses with
  | some address => .error ⟨"Invalid address: " ++ address, []⟩
  | none =>
      let listed : Except Explanation (List String) := match options.watchlist with
        | none => .ok []
        | some path => Watchlist.load path (content path)
      match listed with
      | .error explanation => .error (explanation.within "Failed to load watchlist")
      | .ok listed =>
          if (options.addresses ++ listed).isEmpty then
            .error ⟨"No addresses to watch (use --address or --watchlist)", []⟩
          else .ok (options.addresses ++ listed)

end BlockWatch.CommandLine
