import GuestJs.Imports

/-!
# Specifiers

What a module asks for is a bare name or a path relative to the module that asks. The resolver turns
either into a name; the bindings locate the name.
-/

namespace GuestJs

namespace Resolver

/-- One segment of a relative specifier, on the segments of the directory reached so far. -/
def enter (specifier : Name) (segments : List Name) (segment : Name) : Except Error (List Name) :=
  if segment = ".".toList then .ok segments
  else if segment = "..".toList then
    if segments.isEmpty then
      .error (.importing (String.ofList specifier)
        "the specifier leaves the root of its module tree")
    else .ok segments.dropLast
  else if segment = [] then
    .error (.importing (String.ofList specifier) "the specifier has an empty path segment")
  else .ok (segments ++ [segment])

def directory (referrer : Name) : List Name := (referrer.splitOn '/').dropLast

def join (referrer specifier : Name) : Except Error Name :=
  if referrer.isEmpty then
    .error (.importing (String.ofList specifier) "a relative specifier needs a referring module")
  else do
    let segments ← (specifier.splitOn '/').foldlM (enter specifier) (directory referrer)
    let joined := List.intercalate ['/'] segments
    pure ((ModuleName.fromPath joined).getD joined)

def resolve (referrer specifier : Name) : Except Error Name :=
  if specifier.isEmpty then
    .error (.importing (String.ofList specifier) "an empty specifier names no module")
  else if specifier.head? = some '/' then
    .error (.importing (String.ofList specifier) "absolute specifiers are not supported")
  else if "./".toList.isPrefixOf specifier || "../".toList.isPrefixOf specifier then
    join referrer specifier
  else .ok specifier

end Resolver

namespace GuestBindings

variable {B : Backend}

/-- `Imports::resolve`, in the guest its context belongs to. -/
def resolve (bindings : GuestBindings B) (referrer specifier : Name) : Except Error Name := do
  let name ← Resolver.resolve referrer specifier
  bindings.locate name

/-- `Imports::load`, up to the realisation of what it finds. -/
def load (bindings : GuestBindings B) (name : Name) : Except Error (ModuleSource B) :=
  match bindings.source name with
  | some source => .ok source
  | none => .error (.importing (String.ofList name) "no module of that name is bound to this guest")

end GuestBindings

end GuestJs
