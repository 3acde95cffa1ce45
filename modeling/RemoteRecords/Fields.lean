namespace RemoteRecords

/-- Values by name. Every operation below keeps the names in increasing order, each once. -/
abbrev Fields (α : Type) := List (String × α)

namespace Fields

variable {α : Type}

/-- The fields with `name` set to `value`. -/
def insert (name : String) (value : α) : Fields α → Fields α
  | [] => [(name, value)]
  | (other, held) :: rest =>
      if name < other then (name, value) :: (other, held) :: rest
      else if name = other then (name, value) :: rest
      else (other, held) :: insert name value rest

/-- The value of `name`. -/
def find? (name : String) : Fields α → Option α
  | [] => none
  | (other, held) :: rest => if other = name then some held else find? name rest

/-- The fields without `name`. -/
def erase (name : String) : Fields α → Fields α
  | [] => []
  | (other, held) :: rest =>
      if other = name then erase name rest else (other, held) :: erase name rest

/-- The fields of the pairs; of several with one name the last counts. -/
def ofPairs (pairs : List (String × α)) : Fields α :=
  pairs.foldl (fun fields pair => insert pair.1 pair.2 fields) []

def names (fields : Fields α) : List String := fields.map Prod.fst

/-- The names stand in increasing order, each once. -/
def Sorted (fields : Fields α) : Prop :=
  fields.Pairwise fun left right => left.1 < right.1

theorem find?_insert (name other : String) (value : α) (fields : Fields α) :
    find? other (insert name value fields) =
      if name = other then some value else find? other fields := by
  induction fields with
  | nil => simp [insert, find?]
  | cons pair rest hypothesis =>
      obtain ⟨held, _⟩ := pair
      simp only [insert]
      split
      · simp [find?]
      · split
        · next same =>
            subst same
            by_cases equal : name = other <;> simp [find?, equal]
        · next different =>
            by_cases equal : held = other
            · subst equal
              simp [find?, different]
            · simp [find?, equal, hypothesis]

theorem find?_erase (name other : String) (fields : Fields α) :
    find? other (erase name fields) = if name = other then none else find? other fields := by
  induction fields with
  | nil => simp [erase, find?]
  | cons pair rest hypothesis =>
      obtain ⟨held, _⟩ := pair
      by_cases same : held = name
      · subst same
        simp only [erase, if_true, hypothesis]
        by_cases equal : held = other <;> simp [find?, equal]
      · by_cases equal : held = other
        · subst equal
          simp [erase, find?, same, Ne.symm same]
        · simp [erase, find?, same, equal, hypothesis]

end Fields

end RemoteRecords
