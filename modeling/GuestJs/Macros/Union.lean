import GuestJs.Library.Choice
import GuestJs.Marshal.Deserializer

/-!
# Derived unions

An enum of single-field variants converts from whatever guest value one of them converts from. The
code the macro writes attempts the variants in their order, each with the same value, and looks at the
kind of an error to tell a mismatch from a failure.
-/

namespace GuestJs

open QuickJs Marshal

/-- A variant of an enum with the values `α`: its constructor, and the conversion and the description
of the type of its field. -/
structure UnionVariant (E : Engine) (α : Type) where
  Field : Type
  ident : Field → α
  describe : List String
  fromGuest : Value → Op E Field

namespace UnionVariant

variable {E : Engine} {α : Type}

def attempt (variant : UnionVariant E α) (value : Value) : Op E α :=
  variant.ident <$> variant.fromGuest value

/-- `Describe` for the enum: the descriptions of the fields, one after the other. -/
def expected (variants : List (UnionVariant E α)) : Expected :=
  .of (variants.flatMap UnionVariant.describe)

end UnionVariant

end GuestJs
