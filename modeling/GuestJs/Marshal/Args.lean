import GuestJs.Backend

/-!
# The arguments of a callback

A callback takes its arguments one after the other. What it takes beyond the last one is undefined.
-/

namespace GuestJs

structure Args where
  this : Value
  values : List Value
  newTarget : Value
  next : Nat

namespace Args

def new (this : Value) (values : List Value) (newTarget : Option Value) : Args :=
  ⟨this, values, newTarget.getD .undefined, 0⟩

def advance (args : Args) : Value × Args :=
  (args.values.getD args.next .undefined, { args with next := args.next + 1 })

/-- The values that `rest` converts, which leaves none. -/
def remaining (args : Args) : List Value × Args :=
  (args.values.drop args.next, { args with next := args.values.length })

end Args

end GuestJs
