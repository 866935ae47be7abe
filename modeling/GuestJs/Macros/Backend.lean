import GuestJs.Library.Fresh

/-!
# The backend parameter

What the macros generate is generic in the backend. Which type stands for it is resolved from the
option the attribute gives and from the generics of the item: a parameter that is there, one that is
introduced, a concrete type, or a parameter that is synthesised under a name no other one has. Of the
syntax only what is looked at is kept. An error is its message.
-/

namespace GuestJs

/-- An identifier as it is written. Identifiers are compared as they are written, although the raw
identifier `r#x` is the name `x`. -/
structure Ident where
  raw : Bool
  text : String
  deriving DecidableEq

namespace Ident

def new (text : String) : Ident := ⟨false, text⟩

def unraw (ident : Ident) : Ident := ⟨false, ident.text⟩

def toString (ident : Ident) : String := if ident.raw then "r#" ++ ident.text else ident.text

/-- What the compiler knows the identifier by. -/
def name (ident : Ident) : String := ident.unraw.toString

end Ident

/-! ### Generics -/

structure PathSegment where
  ident : Ident
  arguments : Bool

structure Path where
  leadingColon : Bool
  segments : List PathSegment

def Path.isIdent (path : Path) (ident : Ident) : Bool :=
  !path.leadingColon && match path.segments with
    | [segment] => !segment.arguments && segment.ident == ident
    | _ => false

inductive SynType where
  | path (qself : Bool) (path : Path)
  | other (tokens : String)

inductive TypeParamBound where
  | trait (path : Path)
  | lifetime (ident : Ident)

inductive WherePredicate where
  | lifetime (ident : Ident)
  | type (boundedTy : SynType) (bounds : List TypeParamBound)

structure TypeParam where
  ident : Ident
  bounds : List TypeParamBound

inductive GenericParam where
  | lifetime (ident : Ident)
  | type (parameter : TypeParam)
  | const (ident : Ident)

namespace GenericParam

def ident : GenericParam → Ident
  | .lifetime ident => ident
  | .type parameter => parameter.ident
  | .const ident => ident

def typeParam : GenericParam → Option TypeParam
  | .type parameter => some parameter
  | _ => none

end GenericParam

structure Generics where
  params : List GenericParam
  predicates : List WherePredicate

def Generics.typeParams (generics : Generics) : List TypeParam :=
  generics.params.filterMap GenericParam.typeParam

/-! ### Resolving the parameter -/

inductive BackendOption where
  | named (ident : Ident)
  | pinned (type : SynType)

inductive BackendParameter where
  | synthesized (ident : Ident)
  | declared (ident : Ident)
  | introduced (ident : Ident)
  | concrete (type : SynType)

namespace BackendParameter

def occupied (generics : Generics) (ident : Ident) : Bool :=
  generics.params.any fun parameter => parameter.ident == ident

def isBackend : TypeParamBound → Bool
  | .trait path => match path.segments.getLast? with
      | some segment => segment.ident.toString == "Backend"
      | none => false
  | .lifetime _ => false

/-- `Backend` bounds the parameter where it is declared or in the `where` clause. -/
def bounded (generics : Generics) (parameter : TypeParam) : Bool :=
  parameter.bounds.any isBackend || generics.predicates.any fun
    | .type (.path qself path) bounds =>
        !qself && path.isIdent parameter.ident && bounds.any isBackend
    | _ => false

def candidate : Nat → Ident
  | 0 => .new "B"
  | 1 => .new "__GuestjsBackend"
  | index => .new ("__GuestjsBackend" ++ (index - 1).repr)

def taken (generics : Generics) (methods : List Generics) (ident : Ident) : Bool :=
  occupied generics ident || methods.any fun method => occupied method ident

/-- `none` where the loop does not end within `fuel` candidates. -/
def resolve (fuel : Nat) (option : Option BackendOption) (generics : Generics)
    (methods : List Generics) : Option (Except String BackendParameter) :=
  match option with
  | some (.named ident) =>
      if generics.typeParams.any fun parameter => parameter.ident == ident then
        some (.ok (.declared ident))
      else if occupied generics ident then some (.error "backend must name a type parameter")
      else some (.ok (.introduced ident))
  | some (.pinned type) => some (.ok (.concrete type))
  | none => match generics.typeParams.find? (bounded generics) with
      | some parameter =>
          some (.error ("select the backend explicitly with backend = " ++ parameter.ident.toString))
      | none => (Fresh.search candidate (taken generics methods) fuel 0).map fun ident =>
          .ok (.synthesized ident)

end BackendParameter

end GuestJs
