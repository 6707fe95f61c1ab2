import ConstraintSearch.Domain.Arithmetic

/-!
# Domain expressions

An expression composes the operations that make domains. Whatever is true of every expression is
true of every domain that can be made.
-/

namespace ConstraintSearch

/-- A composition of the operations on domains. -/
inductive DomainExpression
  | empty
  | full
  | range (lo hi : Int)
  | value (value : Int)
  | values (values : List Int)
  | plus (left right : DomainExpression)
  | minus (left right : DomainExpression)
  | mul (left right : DomainExpression)
  | divBy (dividend divisor : DomainExpression)
  | intersection (left right : DomainExpression)
  | removeValue (whole : DomainExpression) (excluded : Int)
  | removeBelow (whole : DomainExpression) (bound : Int)
  | removeAbove (whole : DomainExpression) (bound : Int)
deriving DecidableEq, Repr

/-- The domain that the expression describes. -/
def DomainExpression.domain : DomainExpression → Domain
  | empty => ∅
  | full => Domain.full
  | range lo hi => Domain.range lo hi
  | value only => Domain.value only
  | values listed => Domain.ofValues listed
  | plus left right => left.domain.plus right.domain
  | minus left right => left.domain.minus right.domain
  | mul left right => left.domain.mul right.domain
  | divBy dividend divisor => dividend.domain.divBy divisor.domain
  | intersection left right => left.domain ∩ right.domain
  | removeValue whole excluded => whole.domain.removeValue excluded
  | removeBelow whole bound => whole.domain.removeBelow bound
  | removeAbove whole bound => whole.domain.removeAbove bound

end ConstraintSearch
