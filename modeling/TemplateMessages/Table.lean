set_option autoImplicit false

/-!
# Tables

A table holds values under names, in the order in which the names were first put in.
-/

namespace TemplateMessages

abbrev Table (α : Type) := List (String × α)

namespace Table

variable {α : Type}

/-- The value under a name. -/
def get? (table : Table α) (name : String) : Option α :=
  (table.find? (·.1 == name)).map (·.2)

def put (table : Table α) (name : String) (value : α) : Table α :=
  match table with
  | [] => [(name, value)]
  | entry :: entries =>
    if entry.1 = name then (name, value) :: entries else entry :: put entries name value

def putAll (table other : Table α) : Table α :=
  other.foldl (fun table entry => put table entry.1 entry.2) table

def ofList (entries : List (String × α)) : Table α :=
  putAll [] entries

@[simp] theorem get?_put (table : Table α) (name key : String) (value : α) :
    (table.put name value).get? key = if key = name then some value else table.get? key := by
  induction table with
  | nil =>
    by_cases h : key = name
    · simp [put, get?, h]
    · simp [put, get?, h, Ne.symm h]
  | cons entry entries ih =>
    simp only [get?] at ih ⊢
    by_cases hentry : entry.1 = name
    · by_cases h : key = name
      · simp [put, hentry, h]
      · have : ¬ entry.1 = key := fun heq => h (by rw [← heq, hentry])
        simp [put, hentry, h, Ne.symm h]
    · by_cases hkey : entry.1 = key
      · have : ¬ key = name := fun heq => hentry (by rw [hkey, heq])
        simp [put, hkey, this]
      · simp [put, hentry, hkey, ih]

end Table

end TemplateMessages
