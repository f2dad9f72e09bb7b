import MailFilter.Fault
import MailFilter.NameTable
import MailFilter.Text.Ascii

/-!
# Loop markers

A message in transit remembers, for each action that sends mail back out, the last recipient that
the action was taken for. If the message comes round again, the action is refused for that
recipient.
-/

namespace MailFilter

/-- The last recipient of each action that sends mail, by the action's name. -/
structure LoopMarkers where
  marked : NameTable String

namespace LoopMarkers

/-- No action taken yet. -/
def none : LoopMarkers := ⟨.empty⟩

/-- The last recipient of an action. -/
def recipient? (markers : LoopMarkers) (action : String) : Option String :=
  markers.marked.find? action

/-- Whether an action was last taken for this recipient, in any case of its letters. -/
def isMarked (markers : LoopMarkers) (action recipient : String) : Bool :=
  ((markers.recipient? action).map (Ascii.eqIgnoreCase · recipient)).getD false

/-- The markers after an action has been taken for a recipient. -/
def mark (markers : LoopMarkers) (action recipient : String) : LoopMarkers :=
  ⟨markers.marked.insert action recipient⟩

/-- Marks an action for a recipient, or refuses it if the message has come round. -/
def checkAndMark (markers : LoopMarkers) (action recipient : String) : Except Fault LoopMarkers :=
  if markers.isMarked action recipient then .error (.loopDetected action recipient)
  else .ok (markers.mark action recipient)

end LoopMarkers

end MailFilter
