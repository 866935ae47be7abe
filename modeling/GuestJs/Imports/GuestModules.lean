import GuestJs.Bundle.Builder
import GuestJs.Imports.Resolver

/-!
# Loading

A guest loads a bundle by mounting it and importing its root. The import goes through the engine,
which asks the guest what a specifier stands for and what the source of a name is, and throws what the
guest answers with an error; and it runs guest code, which can reach the host, and mount further
bundles before the import ends.
-/

namespace GuestJs

open Fallible

/-- An import as the engine goes about it: what it asks the dispatcher of the guest, which enters the
guest to answer, and what is mounted meanwhile. -/
inductive Importing (store : BundleStore) (B : Backend) (M : Type) where
  | done (result : Except Error M)
  | resolve (entry : Except Error Unit) (referrer specifier : Name)
      (next : Except Error Name → Importing store B M)
  | load (entry : Except Error Unit) (name : Name)
      (next : Except Error (ModuleSource B) → Importing store B M)
  | mount (bundle : store.Handle) (next : Except Error Unit → Importing store B M)

namespace Importing

variable {store : BundleStore} {B : Backend} {M : Type}

def run : Importing store B M → Fallible (GuestBindings B) Error M
  | .done result => check fun _ => result
  | .resolve entry referrer specifier next => do
      let answer ← attempt (check fun bindings => do entry; bindings.resolve referrer specifier)
      (next answer).run
  | .load entry name next => do
      let answer ← attempt (check fun bindings => do entry; bindings.load name)
      (next answer).run
  | .mount bundle next => do
      let answer ← attempt (GuestBindings.mount bundle.1)
      (next answer).run

end Importing

/-- The engine under a guest: whether the guest can be entered, how a specifier is imported, up to
what the host makes of the evaluation, and what an interruption is called when the entry is left. -/
structure ModuleEngine (store : BundleStore) (B : Backend) (M : Type) where
  entry : Except Error Unit
  «import» : Name → Importing store B M
  interruption : Error

namespace ModuleEngine

variable {store : BundleStore} {B : Backend} {M : Type} (engine : ModuleEngine store B M)

/-- `GuestState::enter`, around what is done in the entry. -/
def enter {α : Type} (body : Fallible (GuestBindings B) Error α) :
    Fallible (GuestBindings B) Error α := do
  check fun _ => engine.entry
  let result ← attempt body
  check fun _ => match result with
    | .error .interrupted => .error engine.interruption
    | result => result

end ModuleEngine

namespace GuestModules

variable {store : BundleStore} {B : Backend} {M : Type} (engine : ModuleEngine store B M)
  (toolchain : Toolchain)

def «import» (name : Name) : Fallible (GuestBindings B) Error M :=
  engine.enter do
    let specifier ← check fun _ => Resolver.resolve [] name
    (engine.import specifier).run

def load (bundle : Bundle) : Fallible (GuestBindings B) Error M :=
  match bundle.root with
  | some root => do
      GuestBindings.mount bundle
      «import» engine root
  | none =>
      throw (.bundle ("a bundle with the roots [" ++
        ", ".intercalate (bundle.roots.map toolchain.quoted) ++ "] has no single root to load"))

/-- The bundle takes the next identity. -/
def guestModule (path : Name) (source : String) (id : BundleId) :
    Fallible (GuestBindings B) Error M := do
  load engine toolchain (← check fun _ => Bundle.single toolchain path source id)

end GuestModules

end GuestJs
