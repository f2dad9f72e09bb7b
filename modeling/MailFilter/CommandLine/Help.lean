import MailFilter.CommandLine.Request

/-!
# Help

What the program says about itself when no task is to be done. A usage error is told to the user
apart from the output, and has an exit code of its own.
-/

namespace MailFilter.CommandLine

/-- Some lines of output. -/
def lines (texts : List String) : String :=
  String.join (texts.map (· ++ "\n"))

/-- The name of the program. -/
def programName : String := "sieve-engine"

/-- How the program is called. -/
def usage : String :=
  lines [
    "Usage: " ++ programName ++ " [OPTIONS] <COMMAND>",
    "",
    "Commands:",
    "  check <SCRIPT>           Parse and validate a script",
    "  run <SCRIPT> <MESSAGE>   Evaluate a script against a message",
    "  extensions               List the capabilities scripts may require",
    "  help                     Print this text",
    "",
    "Options:",
    "  -c, --config <FILE>      Engine configuration file (JSON)",
    "  -v, --verbose            Log more; twice for a trace",
    "  -h, --help               Print this text",
    "  -V, --version            Print the version",
    "",
    "Options of run:",
    "  --from <SENDER>          Envelope sender; empty for the null sender",
    "  --to <RECIPIENT>         Envelope recipient",
    "  --recipient <RECIPIENT>  Final recipient for delivery, by default that of --to",
    "  --deliver <DIR>          Carry out the actions under this directory",
    "  --json                   Print actions as JSON"]

/-- What is printed when no task is to be done. -/
def Halt.output : Halt → String
  | usage => ""
  | help => CommandLine.usage
  | version => lines [programName ++ " 0.1.0"]

/-- The exit code when no task is to be done. -/
def Halt.exitCode : Halt → Nat
  | usage => 2
  | help => 0
  | version => 0

end MailFilter.CommandLine
