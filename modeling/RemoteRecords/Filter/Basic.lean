namespace RemoteRecords

namespace Filter

/-- How a field is compared with a value. -/
inductive Comparator where
  | equal
  | notEqual
  | greater
  | greaterOrEqual
  | less
  | lessOrEqual
  | equalOrUnset
  | equalLike
  | like
  | notLike
  | ilike
  | notIlike
  | equalIlike
  | inList
  | notInList
  | childOf
  | parentOf
  deriving DecidableEq, Repr

/-- Every comparator, in the order in which they are listed to users. -/
def Comparator.all : List Comparator :=
  [.equal, .notEqual, .greater, .greaterOrEqual, .less, .lessOrEqual, .equalOrUnset, .equalLike,
    .like, .notLike, .ilike, .notIlike, .equalIlike, .inList, .notInList, .childOf, .parentOf]

/-- The comparator as it is written in a filter and sent to the server. -/
def Comparator.text : Comparator → String
  | .equal => "="
  | .notEqual => "!="
  | .greater => ">"
  | .greaterOrEqual => ">="
  | .less => "<"
  | .lessOrEqual => "<="
  | .equalOrUnset => "=?"
  | .equalLike => "=like"
  | .like => "like"
  | .notLike => "not like"
  | .ilike => "ilike"
  | .notIlike => "not ilike"
  | .equalIlike => "=ilike"
  | .inList => "in"
  | .notInList => "not in"
  | .childOf => "child_of"
  | .parentOf => "parent_of"

/-- The comparator that is written as `text`. -/
def Comparator.ofText? (text : String) : Option Comparator :=
  Comparator.all.find? fun comparator => comparator.text = text

theorem Comparator.mem_all (comparator : Comparator) : comparator ∈ Comparator.all := by
  cases comparator <;> decide

theorem Comparator.ofText?_text (comparator : Comparator) :
    Comparator.ofText? comparator.text = some comparator := by
  cases comparator <;> decide

theorem Comparator.text_of_ofText? {text : String} {comparator : Comparator}
    (found : Comparator.ofText? text = some comparator) : comparator.text = text := by
  simpa using List.find?_some found

/-- One comparison. Nothing restricts the texts: a term that was not read from a filter text may
hold any field and value. -/
structure Term where
  field : String
  comparator : Comparator
  value : String
  deriving DecidableEq, Repr

/-- What joins two terms. -/
inductive Connective where
  | and
  | or
  deriving DecidableEq, Repr

def Connective.text : Connective → String
  | .and => "&"
  | .or => "|"

def Connective.ofText? (text : String) : Option Connective :=
  if text = "&" then some .and else if text = "|" then some .or else none

/-- The mark of a negated term. -/
def negationText : String := "!"

/-- One element of a filter. The operands of a connective or a negation are plain terms; they do
not nest. -/
inductive Node where
  | leaf (term : Term)
  | binary (connective : Connective) (left right : Term)
  | negation (operand : Term)
  deriving DecidableEq, Repr

/-- The terms of a node in the order of writing. -/
def Node.terms : Node → List Term
  | .leaf term => [term]
  | .binary _ left right => [left, right]
  | .negation operand => [operand]

end Filter

/-- A filter: all its nodes hold. -/
structure Filter where
  nodes : List Filter.Node
  deriving DecidableEq, Repr

namespace Filter

/-- The filter that every record passes. -/
def empty : Filter := ⟨[]⟩

/-- The filter of a single term. -/
def ofTerm (term : Term) : Filter := ⟨[.leaf term]⟩

def isEmpty (filter : Filter) : Bool := filter.nodes.isEmpty

end Filter

end RemoteRecords
