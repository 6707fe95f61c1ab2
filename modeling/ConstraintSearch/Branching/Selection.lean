import ConstraintSearch.Search.Space

/-!
# Selecting the variable to branch on

Two variables are compared by the first criterion of the order that does not hold them equal. The
search branches on the earliest unsolved variable that no other one precedes.
-/

namespace ConstraintSearch

namespace Criterion

/-- The comparison of two places in a list; a variable in the list precedes one that is not. -/
def comparePlaces (inverted : Bool) : (candidate best : Option Nat) → Ordering
  | some candidate, some best => if inverted then compare best candidate else compare candidate best
  | some _, none => .lt
  | none, some _ => .gt
  | none, none => .eq

/-- Which of two variables is preferred: the candidate if the answer is less. -/
def prefer (criterion : Criterion VariableId) (network : Network) (space : Space)
    (candidate best : VariableId) : Ordering :=
  match criterion with
  | naive => .eq
  | size => compare (space.domainOf candidate).size (space.domainOf best).size
  | min =>
    compare ((space.domainOf candidate).min?.getD valueFloor)
      ((space.domainOf best).min?.getD valueFloor)
  | max =>
    compare ((space.domainOf best).max?.getD valueFloor)
      ((space.domainOf candidate).max?.getD valueFloor)
  | markov => compare (network.isMarkov best).toNat (network.isMarkov candidate).toNat
  | list listed inverted =>
    comparePlaces inverted (listed.idxOf? candidate) (listed.idxOf? best)

/-- Which of two variables the first criterion that tells them apart prefers. -/
def preferAmong (network : Network) (space : Space) (candidate best : VariableId) :
    List (Criterion VariableId) → Ordering
  | [] => .eq
  | criterion :: ties =>
    match criterion.prefer network space candidate best with
    | .eq => preferAmong network space candidate best ties
    | decided => decided

end Criterion

namespace VariableOrder

/-- Which of two variables the order prefers: the candidate if the answer is less. -/
def prefer (order : VariableOrder VariableId) (network : Network) (space : Space)
    (candidate best : VariableId) : Ordering :=
  Criterion.preferAmong network space candidate best order.criteria

/-- The better one of two variables; the former best if the order does not prefer the candidate. -/
def better (order : VariableOrder VariableId) (network : Network) (space : Space)
    (best candidate : VariableId) : VariableId :=
  match order.prefer network space candidate best with
  | .lt => candidate
  | _ => best

/-- The variable to branch on, if any is unsolved. An order that starts with the naive criterion
takes the first one and never asks the criteria behind it. -/
def select? (order : VariableOrder VariableId) (network : Network) (space : Space) :
    Option VariableId :=
  match space.unsolved with
  | [] => none
  | first :: others =>
    match order.first with
    | .naive => some first
    | _ => some (others.foldl (order.better network space) first)

end VariableOrder

end ConstraintSearch
