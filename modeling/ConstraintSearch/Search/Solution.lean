import ConstraintSearch.Domain.Text
import ConstraintSearch.Search.Space

/-!
# Solutions

A solution gives every variable of the network, by name, what a solved space has left for it.
-/

namespace ConstraintSearch

/-- What a space has left for a variable. -/
inductive SolutionValue
  | value (value : Int)
  | empty
  | domain (domain : Domain)
deriving DecidableEq

namespace SolutionValue

/-- What a domain leaves. -/
def ofDomain (domain : Domain) : SolutionValue :=
  if domain.isEmpty then empty
  else
    match domain.solvedValue? with
    | some only => value only
    | none => .domain domain

/-- The value, if it is the only one left. -/
def value? : SolutionValue → Option Int
  | value only => some only
  | _ => none

/-- The value, the domain, or the word for no value at all. -/
def text : SolutionValue → String
  | value only => s!"{only}"
  | empty => "false"
  | domain left => left.text

end SolutionValue

/-- What is left for every variable, in the order of declaration. -/
structure Solution where
  entries : List (String × SolutionValue)
deriving DecidableEq

namespace Solution

/-- What a space has left for every variable of the network. -/
def ofSpace (network : Network) (space : Space) : Solution :=
  ⟨space.domains.toList.zipIdx.map fun (domain, variableId) =>
    (network.vars.nameOf variableId, SolutionValue.ofDomain domain)⟩

/-- What is left for the named variable. -/
def get? (solution : Solution) (name : String) : Option SolutionValue :=
  solution.entries.lookup name

/-- The value of the named variable, if it is fixed. -/
def value? (solution : Solution) (name : String) : Option Int :=
  (solution.get? name).bind SolutionValue.value?

/-- The variables with what is left for them, in braces. -/
def text (solution : Solution) : String :=
  "\x7b" ++ ", ".intercalate (solution.entries.map fun (name, value) =>
    name ++ ": " ++ value.text) ++ "\x7d"

end Solution

end ConstraintSearch
