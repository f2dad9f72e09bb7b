import MailFilter.CommandLine.Word

/-!
# Requests

The words of a command line ask for one task: to check a script, to run it on a message, or to list
the extensions. The words are read one by one. Reading halts at the first word that does not fit, or
at one that asks for help.
-/

namespace MailFilter.CommandLine

/-- What to do with a script and a message. -/
structure Job where
  script : String
  message : String
  /-- The sender on the envelope. -/
  sender : Option String
  /-- The recipient on the envelope. -/
  recipient : Option String
  /-- The recipients to deliver to, if they are not the one on the envelope. -/
  mailboxes : List String
  /-- Where to deliver to. Without it, the actions are only shown. -/
  directory : Option String
  /-- Whether to show the actions as JSON. -/
  json : Bool
  deriving DecidableEq

/-- What to do. -/
inductive Task where
  | check (script : String)
  | run (job : Job)
  | extensions
  deriving DecidableEq

/-- What a command line asks for. -/
structure Request where
  settings : Option String
  verbosity : Nat
  task : Task
  deriving DecidableEq

/-- Why no task is to be done. -/
inductive Halt where
  | usage
  | help
  | version
  deriving DecidableEq

/-- The first operand, which says what the others mean. -/
inductive Verb where
  | check
  | run
  | extensions
  | help
  deriving DecidableEq

namespace Verb

/-- Every verb. -/
def all : List Verb := [check, run, extensions, help]

/-- The word for a verb. -/
def text : Verb → String
  | check => "check"
  | run => "run"
  | extensions => "extensions"
  | help => "help"

/-- The verb of a word. -/
def ofText? (word : String) : Option Verb :=
  all.find? fun verb => verb.text = word

/-- How many operands a verb takes at most. -/
def operandCount : Verb → Nat
  | check => 1
  | run => 2
  | extensions => 0
  | help => 1

end Verb

/-- An option. -/
inductive Flag where
  | settings
  | verbose
  | help
  | version
  | sender
  | recipient
  | mailbox
  | directory
  | json
  deriving DecidableEq

namespace Flag

/-- The name of an option. -/
def name : Flag → String
  | settings => "config"
  | verbose => "verbose"
  | help => "help"
  | version => "version"
  | sender => "from"
  | recipient => "to"
  | mailbox => "recipient"
  | directory => "deliver"
  | json => "json"

/-- The letter of an option. -/
def letter? : Flag → Option Char
  | settings => some 'c'
  | verbose => some 'v'
  | help => some 'h'
  | version => some 'V'
  | _ => none

/-- Whether an option has a value. -/
def takesValue : Flag → Bool
  | settings | sender | recipient | mailbox | directory => true
  | verbose | help | version | json => false

/-- Whether an option may be given again. -/
def isRepeatable : Flag → Bool
  | verbose | mailbox => true
  | _ => false

/-- The options there are before a verb and behind each. -/
def available : Option Verb → List Flag
  | none => [settings, verbose, help, version]
  | some .run => [settings, verbose, help, sender, recipient, mailbox, directory, json]
  | some _ => [settings, verbose, help]

end Flag

/-- What has been read so far. -/
structure Reading where
  verb : Option Verb
  /-- The options given since the verb. -/
  given : List Flag
  /-- The option whose value comes next. -/
  awaiting : Option Flag
  /-- Whether the options have ended. -/
  ended : Bool
  operands : List String
  settings : Option String
  verbosity : Nat
  sender : Option String
  recipient : Option String
  mailboxes : List String
  directory : Option String
  json : Bool

namespace Reading

/-- Nothing read. -/
def start : Reading :=
  ⟨none, [], none, false, [], none, 0, none, none, [], none, false⟩

/-- A path cannot be empty. -/
def path (text : String) : Except Halt String :=
  if text = "" then .error .usage else .ok text

/-- Sets an option. What an option says behind the verb counts for more than before it. -/
def set (reading : Reading) (flag : Flag) (value : String) : Except Halt Reading := do
  let again := reading.given.contains flag
  if again && !flag.isRepeatable then throw .usage
  let reading := { reading with given := flag :: reading.given, awaiting := none }
  match flag with
  | .settings => return { reading with settings := some (← path value) }
  | .verbose => return { reading with verbosity := if again then reading.verbosity + 1 else 1 }
  | .help => throw .help
  | .version => throw .version
  | .sender => return { reading with sender := some value }
  | .recipient => return { reading with recipient := some value }
  | .mailbox => return { reading with mailboxes := reading.mailboxes ++ [value] }
  | .directory => return { reading with directory := some (← path value) }
  | .json => return { reading with json := true }

/-- The options that can be given now. -/
def available (reading : Reading) : List Flag :=
  Flag.available reading.verb

/-- Reads an option given by its name. -/
def long (reading : Reading) (name : String) (value : Option String) : Except Halt Reading :=
  match reading.available.find? fun flag => flag.name = name, value with
  | none, _ => .error .usage
  | some flag, none =>
    if flag.takesValue then .ok { reading with awaiting := some flag } else reading.set flag ""
  | some flag, some value => if flag.takesValue then reading.set flag value else .error .usage

/-- Reads options given by their letters. What is behind the letter of an option with a value is the
value, and an equals sign may stand between them. -/
def short (reading : Reading) : List Char → Except Halt Reading
  | [] => .ok reading
  | letter :: letters => do
    match reading.available.find? fun flag => flag.letter? = some letter with
    | none => throw .usage
    | some flag =>
      if flag.takesValue then
        match letters with
        | [] => return { reading with awaiting := some flag }
        | '=' :: value => reading.set flag (String.ofList value)
        | value => reading.set flag (String.ofList value)
      else short (← reading.set flag "") letters

/-- Reads an operand. The first is the verb, which cannot come after the end of the options. -/
def operand (reading : Reading) (text : String) : Except Halt Reading :=
  match reading.verb with
  | none =>
    if reading.ended then .error .usage
    else
      match Verb.ofText? text with
      | some verb => .ok { reading with verb := some verb, given := [] }
      | none => .error .usage
  | some verb => do
    if verb.operandCount ≤ reading.operands.length then throw .usage
    return { reading with operands := reading.operands ++ [← path text] }

/-- Reads a word. Behind `help` only the name of a verb can stand. -/
def step (reading : Reading) (text : String) : Except Halt Reading :=
  if reading.verb = some .help then
    if (Verb.ofText? text).isSome then reading.operand text else .error .usage
  else if reading.ended then reading.operand text
  else
    match reading.awaiting, Word.ofText text with
    | some flag, .operand value => reading.set flag value
    | some _, _ => .error .usage
    | none, .operand text => reading.operand text
    | none, .endOfOptions => .ok { reading with ended := true }
    | none, .long name value => reading.long name value
    | none, .short letters => reading.short letters

/-- What has been asked for once every word is read. -/
def finish (reading : Reading) : Except Halt Request :=
  let request (task : Task) : Except Halt Request :=
    if reading.awaiting.isSome then .error .usage
    else .ok ⟨reading.settings, reading.verbosity, task⟩
  match reading.verb, reading.operands with
  | some .check, [script] => request (.check script)
  | some .run, [script, message] =>
    request (.run ⟨script, message, reading.sender, reading.recipient, reading.mailboxes,
      reading.directory, reading.json⟩)
  | some .extensions, [] => request .extensions
  | some .help, _ => .error .help
  | _, _ => .error .usage

end Reading

/-- The request of a command line. -/
def Request.ofWords (words : List String) : Except Halt Request := do
  (← words.foldlM Reading.step .start).finish

end MailFilter.CommandLine
