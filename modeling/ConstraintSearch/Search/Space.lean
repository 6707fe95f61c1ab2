import ConstraintSearch.Network.Basic

/-!
# Spaces

A space is a node of the search tree: the domain of every variable, the targeted variables that are
not fixed yet, and how far the space has been branched on. A child starts with the domains of its
parent, one of them narrowed.
-/

namespace ConstraintSearch

/-- A node of the search tree. -/
structure Space where
  domains : Table Domain
  /-- The targeted variables which are not fixed, in the order in which they are targeted. -/
  unsolved : List VariableId
  /-- The number of children that have been requested, at most 2. -/
  branchCount : Nat := 0
  /-- The variable that was narrowed to make this space from its parent; none for the root. -/
  changed : Option VariableId := none
  /-- The value by which the first child was divided from the second one. -/
  lastChosen : Option Int := none
  /-- The number of spaces from the root to this one, both of which count. -/
  depth : Nat := 1

namespace Space

/-- The domain of a variable; a variable that does not exist has no values. -/
def domainOf (space : Space) (variableId : VariableId) : Domain :=
  space.domains.getD variableId ∅

/-- Whether every targeted variable is fixed. -/
def isSolved (space : Space) : Bool :=
  space.unsolved.isEmpty

/-- The space without the variables that have become fixed in its list of unsolved ones. -/
def updateUnsolved (space : Space) : Space :=
  { space with
    unsolved := space.unsolved.filter fun variableId => !(space.domainOf variableId).isSolved }

/-- The root of the search tree: the initial domains. -/
def root (network : Network) : Space :=
  updateUnsolved
    { domains := network.vars.table.map Variable.domain
      unsolved := network.targeted }

/-- The child with the domain of one variable replaced. -/
def child (space : Space) (variableId : VariableId) (domain : Domain) : Space :=
  { domains := space.domains.set variableId domain
    unsolved := space.unsolved
    changed := some variableId
    depth := space.depth + 1 }

end Space

end ConstraintSearch
