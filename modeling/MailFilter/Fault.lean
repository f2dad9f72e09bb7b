import MailFilter.Script.Token
import MailFilter.Script.Node
import MailFilter.Script.Basic

/-!
# Faults

Everything that can go wrong is a value that names its cause. The wording is decided here and
nowhere else: `Fault.kind` is the short label that log events carry, `Fault.message` the sentence
that is shown.
-/

namespace MailFilter

open Script (Token NodeKind)

/-- Why a text is not a script of the grammar. An absent token stands for the end of input. -/
inductive ParseCause where
  | openComment
  | openString
  | openMultiline
  | textAfterOpener
  | emptyTag
  | unexpectedChar (c : Char)
  | tooDeep (limit : Nat)
  | commandExpected (got : Option Token)
  | terminatorExpected (command : String) (got : Option Token)
  | openBlock
  | listItemExpected (got : Option Token)
  | listSeparatorExpected (got : Option Token)
  | testExpected (got : Option Token)
  | testSeparatorExpected (got : Option Token)
  | nodeExpected (wanted : String) (found : NodeKind)
  | tokenMissing (kind : NodeKind)
  deriving DecidableEq

/-- Why a script is refused before it sees any message. -/
inductive ValidationCause where
  | lateRequire
  | nestedRequire
  | unsupportedComparator (name : String)
  | unsupportedFeature (name : String)
  | unknownCommand (name : String)
  | unknownTest (name : String)
  | undeclaredComparator (name : String)
  deriving DecidableEq

/-- Why a text is not the address of exactly one mailbox. -/
inductive MailboxFault where
  | empty
  | missing
  | several (count : Nat)
  | noLocalPart
  | noDomain
  deriving DecidableEq

/-- What is wrong with the arguments of a command or a test. -/
inductive ArgumentCause where
  | blockRefused
  | testRefused
  | argumentsRefused
  | stringExpected (found : Argument)
  | oneStringExpected (count : Nat)
  | blockExpected
  | testExpected
  | oneTestExpected (count : Nat)
  | featuresExpected
  | invalidAddress (address : String) (fault : MailboxFault)
  | argumentAfterReason
  | daysExpected
  | tagValueExpected (tag : String)
  | addressesExpected
  | unknownTag (tag : String)
  | unexpectedArgument (found : Argument)
  | reasonMissing
  | unknownLogLevel (tag : String)
  | logMessageExpected
  | nestedTestsRefused
  | tagAfterLists (tag : String)
  | comparatorNameExpected
  | repeatedComparator
  | repeatedMatchType
  | repeatedAddressPart
  | listExpected (found : Argument)
  | twoListsExpected (count : Nat)
  | namesExpected
  | oneNameListExpected
  | sizeLimitExpected
  | onlyNestedTests
  | nestedTestCount (count : Nat)
  | testArgumentsRefused
  | unknownEnvelopePart (name : String)
  | invalidNumber (text : String)
  deriving DecidableEq

/-- Why a command is out of place at this point of an evaluation. -/
inductive CommandCause where
  | budgetExceeded (limit : Nat)
  | elsifWithoutIf
  | elseWithoutIf
  | requireAfterProlog
  | messageRejected
  deriving DecidableEq

/-- Why a file operation failed. -/
inductive FileFault where
  | notFound
  | isDirectory
  | notDirectory
  | alreadyExists
  | nameTooLong
  | notUtf8
  | other (description : String)
  deriving DecidableEq

/-- A failure, by the stage it arises in. -/
inductive Fault where
  | parse (line column : Nat) (cause : ParseCause)
  | validation (line : Nat) (cause : ValidationCause)
  | arguments (name : String) (line : Nat) (cause : ArgumentCause)
  | command (name : String) (line : Nat) (cause : CommandCause)
  | feature (name : String)
  | lookup (name : String)
  | addressParse (header : String) (fault : MailboxFault)
  | loopDetected (action recipient : String)
  | recipients (action : String) (count : Nat)
  | mailboxName (name : String)
  | file (path : Option String) (fault : FileFault)
  | config
  deriving DecidableEq

/-- How a message about unexpected input names the next token or the end of input. -/
def ParseCause.describeNext : Option Token → String
  | some token => token.describe
  | none => "end of input"

/-- The wording of a parse failure. -/
def ParseCause.message : ParseCause → String
  | openComment => "Unterminated block comment"
  | openString => "Unterminated string"
  | openMultiline => "Unterminated multi-line string"
  | textAfterOpener => "Unexpected text after 'text:'"
  | emptyTag => "Empty tag"
  | unexpectedChar c => "Unexpected character '" ++ c.toString ++ "'"
  | tooDeep limit => "Nesting deeper than " ++ toString limit ++ " levels"
  | commandExpected got => "Expected command, got " ++ describeNext got
  | terminatorExpected command got =>
    "Expected ';' or '\x7b' after '" ++ command ++ "', got " ++ describeNext got
  | openBlock => "Unexpected end of input in block"
  | listItemExpected got => "Expected string in list, got " ++ describeNext got
  | listSeparatorExpected got => "Expected ',' or ']' in list, got " ++ describeNext got
  | testExpected got => "Expected test in test list, got " ++ describeNext got
  | testSeparatorExpected got => "Expected ',' or ')' in test list, got " ++ describeNext got
  | nodeExpected wanted found => "Expected " ++ wanted ++ ", found " ++ found.name ++ " node"
  | tokenMissing kind => kind.name ++ " node is missing its token"

/-- The wording of a failed check before evaluation. -/
def ValidationCause.message : ValidationCause → String
  | lateRequire => "'require' must come before any other command"
  | nestedRequire => "'require' is not allowed inside a block"
  | unsupportedComparator name => "Unsupported comparator \"" ++ name ++ "\""
  | unsupportedFeature name => "Unsupported feature \"" ++ name ++ "\""
  | unknownCommand name => "Unknown command \"" ++ name ++ "\""
  | unknownTest name => "Unknown test \"" ++ name ++ "\""
  | undeclaredComparator name => "Comparator \"" ++ name ++ "\" is used without being required"

/-- The wording of a text that is no single mailbox. -/
def MailboxFault.message : MailboxFault → String
  | empty => "empty address"
  | missing => "no address found"
  | several count => "expected a single address, found " ++ toString count
  | noLocalPart => "missing local part"
  | noDomain => "missing domain"

/-- The wording of wrong arguments. -/
def ArgumentCause.message : ArgumentCause → String
  | blockRefused => "Command does not take a block"
  | testRefused => "Command does not take a test"
  | argumentsRefused => "Command takes no arguments"
  | stringExpected found => "Expected a string argument, found a " ++ found.describe
  | oneStringExpected count => "Expected exactly one string argument, found " ++ toString count
  | blockExpected => "Expected a block"
  | testExpected => "Expected a test, found arguments"
  | oneTestExpected count => "Expected exactly one test, found " ++ toString count
  | featuresExpected => "Expected a string or string list of capabilities"
  | invalidAddress address fault => "Invalid address \"" ++ address ++ "\": " ++ fault.message
  | argumentAfterReason => "Unexpected argument after the reason"
  | daysExpected => "Expected a number after :days"
  | tagValueExpected tag => "Expected a string after " ++ tag
  | addressesExpected => "Expected addresses after :addresses"
  | unknownTag tag => "Unknown tag " ++ tag
  | unexpectedArgument found => "Unexpected " ++ found.describe ++ " argument"
  | reasonMissing => "Missing vacation reason"
  | unknownLogLevel tag => "Unknown log level " ++ tag
  | logMessageExpected => "Expected an optional level tag and a message"
  | nestedTestsRefused => "Test does not take nested tests"
  | tagAfterLists tag => "Tag " ++ tag ++ " must precede the string lists"
  | comparatorNameExpected => "Expected a comparator name"
  | repeatedComparator => "Duplicate :comparator"
  | repeatedMatchType => "Duplicate match type"
  | repeatedAddressPart => "Duplicate address part"
  | listExpected found => "Expected a string list, found a " ++ found.describe
  | twoListsExpected count => "Expected two string lists, found " ++ toString count
  | namesExpected => "Expected a string list"
  | oneNameListExpected => "Expected exactly one string list"
  | sizeLimitExpected => "Expected :over or :under followed by a number"
  | onlyNestedTests => "Test takes only nested tests"
  | nestedTestCount count => "Unexpected number of nested tests: " ++ toString count
  | testArgumentsRefused => "Test takes no arguments"
  | unknownEnvelopePart name => "Unknown envelope part \"" ++ name ++ "\""
  | invalidNumber text => "Invalid number '" ++ text ++ "'"

/-- The wording of a misplaced command. -/
def CommandCause.message : CommandCause → String
  | budgetExceeded limit => "Evaluation step budget of " ++ toString limit ++ " exceeded"
  | elsifWithoutIf => "Unexpected 'elsif' without a preceding 'if'"
  | elseWithoutIf => "Unexpected 'else' without a preceding 'if'"
  | requireAfterProlog => "'require' is only allowed before any other command"
  | messageRejected => "Cannot perform actions on a rejected message"

/-- The wording of a failed file operation, with the number the system gives it. -/
def FileFault.message : FileFault → String
  | notFound => "No such file or directory (os error 2)"
  | isDirectory => "Is a directory (os error 21)"
  | notDirectory => "Not a directory (os error 20)"
  | alreadyExists => "File exists (os error 17)"
  | nameTooLong => "File name too long (os error 36)"
  | notUtf8 => "stream did not contain valid UTF-8"
  | other description => description

namespace Fault

/-- The label of a fault in log events. -/
def kind : Fault → String
  | parse .. => "parse"
  | validation .. => "validation"
  | arguments .. => "syntax"
  | command .. => "command"
  | feature _ => "feature"
  | lookup _ => "lookup"
  | addressParse .. => "address-parse"
  | loopDetected .. => "loop-detected"
  | recipients .. => "recipients"
  | mailboxName _ => "delivery"
  | file .. => "io"
  | config => "config"

/-- The sentence that tells a user about a fault. -/
def message : Fault → String
  | parse line column cause =>
    "Parse error at line " ++ toString line ++ ", column " ++ toString column ++ ": " ++
      cause.message
  | validation line cause => "Validation error at line " ++ toString line ++ ": " ++ cause.message
  | arguments name line cause =>
    "Syntax error in '" ++ name ++ "' at line " ++ toString line ++ ": " ++ cause.message
  | command name line cause =>
    "Command error in '" ++ name ++ "' at line " ++ toString line ++ ": " ++ cause.message
  | feature name => "Feature \"" ++ name ++ "\" is not supported"
  | lookup name => "No implementation registered for \"" ++ name ++ "\""
  | addressParse header fault => "Cannot parse address in \"" ++ header ++ "\": " ++ fault.message
  | loopDetected action recipient =>
    "Message is looping: " ++ action ++ " already handled for " ++ recipient
  | recipients action count =>
    "Message has " ++ toString count ++ " recipients, exactly one is required for " ++ action
  | mailboxName name => "Delivery error: Invalid mailbox name \"" ++ name ++ "\""
  | file none fault => "I/O error: " ++ fault.message
  | file (some path) fault => "I/O error: " ++ path ++ ": " ++ fault.message
  | config => "Configuration error"

end Fault

end MailFilter
