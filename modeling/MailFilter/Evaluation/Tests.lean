import MailFilter.Evaluation.State
import MailFilter.Match.Arguments

/-!
# Tests on a message

The tests that hold no further tests depend on the message alone: they cannot change the state of an
evaluation, and all of them but `envelope` come out true or false once their arguments are right.
The combinators evaluate the tests inside them from left to right and stop at the first that
decides.
-/

namespace MailFilter

variable [MailReader]

/-- Whether one part of an address is accepted by one of the keys. Domains are compared in lower
case, whatever the comparator. -/
def MatchArguments.acceptsAddress (sought : MatchArguments) (comparator : Comparator)
    (address : Address) : Bool :=
  let value := address.part sought.addressPart
  if sought.addressPart = .domain then
    sought.keys.any fun key =>
      comparator.compare sought.matchType (Ascii.lower value) (Ascii.lower key)
  else sought.keys.any fun key => comparator.compare sought.matchType value key

/-- The values that a header test compares. An absent header still contains the empty text. -/
def MatchArguments.headerValues (sought : MatchArguments) (mail : Message) (name : String) :
    List String :=
  match mail.header name with
  | [] => if sought.matchType = .contains then [""] else []
  | values => values

/-- Whether some value of some named header is accepted by some key. -/
def MatchArguments.acceptsHeaders (sought : MatchArguments) (comparator : Comparator)
    (mail : Message) : Bool :=
  sought.names.any fun name =>
    (sought.headerValues mail name).any fun value =>
      sought.keys.any fun key => comparator.compare sought.matchType value key

/-- Whether some mailbox of some named header is accepted. -/
def MatchArguments.acceptsAddresses (sought : MatchArguments) (comparator : Comparator)
    (mail : Message) : Bool :=
  sought.names.any fun name => (mail.addresses name).any (sought.acceptsAddress comparator)

/-- The address of an envelope path. An empty path is the null address. -/
def EnvelopePart.address (part : EnvelopePart) (path : String) : Except Fault Address :=
  let path := Text.trim path
  if path = "" ∨ path = "<>" then .ok .null
  else (Address.ofMailbox path).mapError (.addressParse ("envelope " ++ part.text))

/-- Whether the path of some envelope part is accepted. Parts are tried in order; one that the
message has no path for is passed over, one that is no address is a fault. -/
def MatchArguments.acceptsEnvelope (sought : MatchArguments) (comparator : Comparator)
    (mail : Message) : List EnvelopePart → Except Fault Bool
  | [] => .ok false
  | part :: parts =>
    match mail.envelope part with
    | none => sought.acceptsEnvelope comparator mail parts
    | some path =>
      match part.address path with
      | .error fault => .error fault
      | .ok address =>
        if sought.acceptsAddress comparator address then .ok true
        else sought.acceptsEnvelope comparator mail parts

namespace Test

/-- A fault in the arguments of a test. -/
def argumentFault (test : Test) (cause : ArgumentCause) : Fault :=
  .arguments test.name test.line cause

/-- The envelope parts that a test names. -/
def envelopeParts (test : Test) : List String → Except Fault (List EnvelopePart)
  | [] => .ok []
  | name :: names =>
    match EnvelopePart.ofWord? name with
    | some part => return part :: (← test.envelopeParts names)
    | none => .error (test.argumentFault (.unknownEnvelopePart name))

/-- The header names of a test that takes one list of them. -/
def headerNames (test : Test) : Except Fault (List String) :=
  if test.tests.isSome then .error (test.argumentFault .nestedTestsRefused)
  else
    match test.arguments with
    | [argument] =>
      match argument.strings? with
      | some names => .ok names
      | none => .error (test.argumentFault .namesExpected)
    | _ => .error (test.argumentFault .oneNameListExpected)

/-- The limit of a size test and the side of it. -/
def sizeLimit (test : Test) : Except Fault (SizeSide × Nat) :=
  if test.tests.isSome then .error (test.argumentFault .nestedTestsRefused)
  else
    match test.arguments with
    | [.tag tag, .number limit] =>
      match SizeSide.ofTag? tag with
      | some side => .ok (side, limit)
      | none => .error (test.argumentFault (.unknownTag tag))
    | _ => .error (test.argumentFault .sizeLimitExpected)

/-- Refuses whatever a test was given that takes nothing. -/
def takesNothing (test : Test) : Except Fault Unit :=
  if test.arguments.isEmpty ∧ test.tests.isNone then .ok ()
  else .error (test.argumentFault .testArgumentsRefused)

/-- What is wrong with a combinator that was not given just the tests it needs. -/
def combinatorFault (test : Test) : Fault :=
  if test.arguments.isEmpty then test.argumentFault (.nestedTestCount test.nested.length)
  else test.argumentFault .onlyNestedTests

/-- The result of a `header` test. -/
def header (environment : Environment) (test : Test) : Except Fault Bool := do
  let sought ← MatchArguments.ofTest test false
  let comparator ← environment.registries.comparators.lookup sought.comparator
  return sought.acceptsHeaders comparator environment.mail

/-- The result of an `address` test. -/
def address (environment : Environment) (test : Test) : Except Fault Bool := do
  let sought ← MatchArguments.ofTest test true
  let comparator ← environment.registries.comparators.lookup sought.comparator
  return sought.acceptsAddresses comparator environment.mail

/-- The result of an `envelope` test. -/
def envelope (environment : Environment) (test : Test) : Except Fault Bool := do
  let sought ← MatchArguments.ofTest test true
  let parts ← test.envelopeParts sought.names
  let comparator ← environment.registries.comparators.lookup sought.comparator
  sought.acceptsEnvelope comparator environment.mail parts

/-- The result of an `exists` test: every named header is there. -/
def «exists» (environment : Environment) (test : Test) : Except Fault Bool := do
  let names ← test.headerNames
  return names.all fun name => !(environment.mail.header name).isEmpty

/-- The result of a `size` test. -/
def size (environment : Environment) (test : Test) : Except Fault Bool := do
  let (side, limit) ← test.sizeLimit
  return side.holds environment.mail.size limit

/-- The result of a test that is always the same. -/
def constant (result : Bool) (test : Test) : Except Fault Bool := do
  test.takesNothing
  return result

mutual

/-- Evaluates a test: counts the step, finds out what the test's name stands for, checks its
arguments and gives its result. -/
def evaluate (environment : Environment) : Test → Eval Bool
  | ⟨name, arguments, tests, line⟩ => do
    let test : Test := ⟨name, arguments, tests, line⟩
    Eval.tick environment name line
    let result ← match ← Eval.ofExcept (environment.registries.tests.lookup name) with
      | .address => Eval.ofExcept (test.address environment)
      | .envelope => Eval.ofExcept (test.envelope environment)
      | .header => Eval.ofExcept (test.header environment)
      | .exists => Eval.ofExcept (test.exists environment)
      | .size => Eval.ofExcept (test.size environment)
      | .true => Eval.ofExcept (test.constant true)
      | .false => Eval.ofExcept (test.constant false)
      | .not =>
        match arguments, tests with
        | [], some [inner] => (!·) <$> evaluate environment inner
        | _, _ => throw test.combinatorFault
      | .allof =>
        match arguments, tests with
        | [], some (first :: others) => evaluateAll environment (first :: others)
        | _, _ => throw test.combinatorFault
      | .anyof =>
        match arguments, tests with
        | [], some (first :: others) => evaluateAny environment (first :: others)
        | _, _ => throw test.combinatorFault
    Eval.note (.testDone name line result)
    return result

/-- Evaluates tests in order up to the first that is false; true if there is none. -/
def evaluateAll (environment : Environment) : List Test → Eval Bool
  | [] => return true
  | test :: tests => do
    if ← evaluate environment test then evaluateAll environment tests else return false

/-- Evaluates tests in order up to the first that is true; false if there is none. -/
def evaluateAny (environment : Environment) : List Test → Eval Bool
  | [] => return false
  | test :: tests => do
    if ← evaluate environment test then return true else evaluateAny environment tests

end

end Test

end MailFilter
