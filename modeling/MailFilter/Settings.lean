import MailFilter.Json
import MailFilter.Registry

/-!
# Settings

Settings bind names to implementations, each called by the name it usually has; they may bound the
steps of an evaluation, and they name the folder that keeping a message delivers to. They are read
from and written as JSON. Whatever is left out has a default, but a field that is there has to be
right, and none may be repeated.
-/

namespace MailFilter

/-- Which name is bound to which implementation, by registry. -/
structure Bindings where
  commands : NameTable String
  tests : NameTable String
  comparators : NameTable String

/-- What an engine is set up with. -/
structure Settings where
  bindings : Bindings
  maxSteps : Option Nat
  inbox : String

namespace Bindings

/-- No name at all. -/
def empty : Bindings := ⟨.empty, .empty, .empty⟩

/-- Every name bound to itself. -/
def identity (names : List String) : NameTable String :=
  .ofList (names.map fun name => (name, name))

/-- Every implementation under its own name. -/
def default : Bindings where
  commands := identity (CommandKind.all.map CommandKind.name)
  tests := identity (TestKind.all.map TestKind.name)
  comparators := identity (Comparator.all.map Comparator.name)

/-- The implementation of a name among those there are, in any case of its letters. -/
def implementation {κ : Type} (all : List κ) (name : κ → String) (id : String) : Except Fault κ :=
  match all.find? fun kind => Ascii.eqIgnoreCase (name kind) id with
  | some kind => .ok kind
  | none => .error (.lookup id)

/-- Registers every name of a table for the implementation it is bound to. -/
def register {κ : Type} (all : List κ) (name : κ → String) (registry : Registry κ)
    (table : NameTable String) : Except Fault (Registry κ) :=
  table.entries.foldlM
    (fun registry (bound, id) => return registry.register bound (← implementation all name id))
    registry

/-- The registries that some bindings describe. An implementation there is not is found out here
and never during an evaluation. -/
def registries (bindings : Bindings) : Except Fault Registries := do
  let empty := Registries.empty
  let commands ← register CommandKind.all CommandKind.name empty.commands bindings.commands
  let tests ← register TestKind.all TestKind.name empty.tests bindings.tests
  let comparators ← register Comparator.all Comparator.name empty.comparators bindings.comparators
  return ⟨commands, tests, comparators⟩

/-- The JSON form of a table. -/
def tableToJson (table : NameTable String) : Json :=
  .object (table.entries.map fun (name, id) => (name, .string id))

/-- The JSON form of some bindings. -/
def toJson (bindings : Bindings) : Json :=
  .object [("commands", tableToJson bindings.commands), ("tests", tableToJson bindings.tests),
    ("comparators", tableToJson bindings.comparators)]

/-- The table of a JSON form, or the default if there is none. -/
def tableOfJson? (default : NameTable String) : Option Json → Option (NameTable String)
  | none => some default
  | some json => do
    let fields ← json.object?
    return .ofList (← fields.mapM fun (name, id) => id.string?.map (name, ·))

/-- The bindings of a JSON form. -/
def ofJson? (json : Json) : Option Bindings := do
  match ← json.record? ["commands", "tests", "comparators"] with
  | [commands, tests, comparators] =>
    return {
      commands := ← tableOfJson? default.commands commands
      tests := ← tableOfJson? default.tests tests
      comparators := ← tableOfJson? default.comparators comparators }
  | _ => none

end Bindings

namespace Settings

/-- The folder that keeping a message delivers to unless another is named. -/
def defaultInbox : String := "INBOX"

/-- Every implementation under its own name, no bound on steps, the usual inbox. -/
def default : Settings := ⟨.default, none, defaultInbox⟩

/-- The JSON form of some settings. -/
def toJson (settings : Settings) : Json :=
  .object [("registry", settings.bindings.toJson),
    ("max_steps", (settings.maxSteps.map Json.nat).getD .null),
    ("inbox", .string settings.inbox)]

/-- The bound that a field gives: none if it is missing or null. -/
def boundOfJson? : Option Json → Option (Option Nat)
  | none => some none
  | some .null => some none
  | some json => json.nat?.map some

/-- The settings of a JSON form. -/
def ofJson? (json : Json) : Option Settings := do
  match ← json.record? ["registry", "max_steps", "inbox"] with
  | [bindings, maxSteps, inbox] =>
    return {
      bindings := ← (bindings.map Bindings.ofJson?).getD (some .default)
      maxSteps := ← boundOfJson? maxSteps
      inbox := ← (inbox.map Json.string?).getD (some defaultInbox) }
  | _ => none

end Settings

end MailFilter
