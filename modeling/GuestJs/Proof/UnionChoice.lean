import GuestJs.Macros.Union
import GuestJs.Proof.Agreement

/-!
# Which variant a union takes

A union should take the first variant whose type accepts the value, and go on to the next whenever the
value has not the shape of a type. The code goes on after a conversion error only, and serde reports
some mismatches in another way.
-/

namespace GuestJs

open QuickJs Marshal Process

namespace UnionVariant

variable {E : Engine} {α : Type}

end UnionVariant

namespace Marshal.PlainEngine

/-- The types of the example: two records, each with a flag of its own. -/
inductive Event where
  | flag
  | opened
  | closed
  deriving DecidableEq

def event : Event → Shape Event
  | .flag => .bool
  | .opened => .struct "Opened" [("opened", .flag)]
  | .closed => .struct "Closed" [("closed", .flag)]

/-- A session with the object `{ closed: true }`. -/
def closing : Session engine := session ⟨[.record [("closed", .boolean true)]], [], false⟩

end Marshal.PlainEngine

end GuestJs
