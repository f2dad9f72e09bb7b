/-!
# Tables keyed by name

A table binds names to values and lists its names in order, the one with the smaller code point
first. Binding a name again replaces its value.
-/

namespace MailFilter

/-- Names with a value each. -/
structure NameTable (α : Type) where
  entries : List (String × α)
  deriving DecidableEq

namespace NameTable

variable {α : Type}

/-- The table without names. -/
def empty : NameTable α := ⟨[]⟩

/-- The entries after a name has been bound, its place found by order. -/
def insertEntry (name : String) (value : α) : List (String × α) → List (String × α)
  | [] => [(name, value)]
  | entry :: entries =>
    if name < entry.1 then (name, value) :: entry :: entries
    else if name = entry.1 then (name, value) :: entries
    else entry :: insertEntry name value entries

/-- Binds a name. -/
def insert (table : NameTable α) (name : String) (value : α) : NameTable α :=
  ⟨insertEntry name value table.entries⟩

/-- The value of a name. -/
def find? (table : NameTable α) (name : String) : Option α :=
  (table.entries.find? fun entry => entry.1 == name).map Prod.snd

/-- Whether a name is bound. -/
def contains (table : NameTable α) (name : String) : Bool :=
  (table.find? name).isSome

/-- The names in order. -/
def names (table : NameTable α) : List String :=
  table.entries.map Prod.fst

/-- The number of names. -/
def size (table : NameTable α) : Nat :=
  table.entries.length

/-- The table of some entries. Of two entries of one name the later counts. -/
def ofList (entries : List (String × α)) : NameTable α :=
  entries.foldl (fun table entry => table.insert entry.1 entry.2) empty

/-- Nothing has a name in an empty table. -/
@[simp] theorem find?_empty (name : String) : (empty : NameTable α).find? name = none := rfl

/-- A name just bound has its value, and every other name has the value it had. -/
theorem find?_insert (table : NameTable α) (name other : String) (value : α) :
    (table.insert name value).find? other =
      if name = other then some value else table.find? other := by
  obtain ⟨entries⟩ := table
  simp only [find?, insert]
  induction entries with
  | nil => by_cases h : name = other <;> simp [insertEntry, h]
  | cons entry entries ih =>
    simp only [insertEntry]
    split
    · by_cases h : name = other <;> simp [List.find?_cons, h]
    split
    · next heq => by_cases h : entry.1 = other <;> simp [heq, h]
    · by_cases h : entry.1 = other
      · have hne : name ≠ other := fun hname => by simp_all
        simp [h, hne]
      · simpa [List.find?_cons, h] using ih

end NameTable

end MailFilter
