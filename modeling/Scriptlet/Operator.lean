import Scriptlet.RuntimeError
import Scriptlet.Value

/-!
# Operators

The meaning of unary and binary operators on values. Equality is defined for all values, addition
for two numbers or two strings, and everything else for numbers.
-/

namespace Scriptlet

/-- The meaning of a unary operator. Whatever is not a negation of a truth value negates a number. -/
def applyUnary (operator : Token) (operand : Value) : Except RuntimeError Value :=
  match operator.kind, operand with
  | .bang, _ => .ok (.bool !operand.isTruthy)
  | _, .number value => .ok (.number (-value))
  | _, _ => .error ⟨.notNumber, operator⟩

/-- The meaning of an operator on numbers, if it has one. -/
def arithmetic? (kind : Token.Kind) (left right : Float) : Option Value :=
  match kind with
  | .minus => some (.number (left - right))
  | .star => some (.number (left * right))
  | .slash => some (.number (left / right))
  | .greater => some (.bool (left > right))
  | .greaterEqual => some (.bool (left ≥ right))
  | .less => some (.bool (left < right))
  | .lessEqual => some (.bool (left ≤ right))
  | _ => none

/-- The sum of two numbers, or one string after the other. -/
def add (operator : Token) : Value → Value → Except RuntimeError Value
  | .number left, .number right => .ok (.number (left + right))
  | .string left, .string right => .ok (.string (left ++ right))
  | _, _ => .error ⟨.notAddable, operator⟩

/-- The meaning of a binary operator. -/
def applyBinary (operator : Token) (left right : Value) : Except RuntimeError Value :=
  match operator.kind with
  | .equalEqual => .ok (.bool (left.isEqual right))
  | .bangEqual => .ok (.bool !left.isEqual right)
  | .plus => add operator left right
  | kind =>
    match left, right with
    | .number left, .number right =>
      match arithmetic? kind left right with
      | some value => .ok value
      | none => .error ⟨.unknownOperator, operator⟩
    | _, _ => .error ⟨.notNumbers, operator⟩

end Scriptlet
