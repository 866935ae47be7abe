import GuestJs.Bundle
import GuestJs.Errors
import GuestJs.Library.Fallible

/-!
# Building bundles

A builder takes files one after another. Its methods consume it and give it back, so an error is kept
inside until the end: the first one stays, and what is added after it is not looked at.
-/

namespace GuestJs

open Fallible

/-- What building takes from outside: the transpiler, as a function of path and source, and texts in
which the standard library renders a path and says where bytes stop being UTF-8. -/
structure Toolchain where
  transpile : Name → String → Except Error String
  quoted : Name → String
  utf8Error : List UInt8 → String

def fromUtf8 (bytes : List UInt8) : Option String := String.fromUTF8? ⟨bytes.toArray⟩

def BundlePath.isSegment (segment : Name) : Bool :=
  segment ≠ [] && segment ≠ ".".toList && segment ≠ "..".toList

def BundlePath.isNamed (path : Name) : Bool :=
  (path.splitOn '/').all fun segment => isSegment segment && !segment.contains '\\'

/-- A relative path of named segments. -/
structure BundlePath where
  path : Name
  named : BundlePath.isNamed path = true

namespace BundlePath

def new (toolchain : Toolchain) (path : Name) : Except Error BundlePath :=
  if named : isNamed path = true then .ok ⟨path, named⟩
  else .error (.bundle (toolchain.quoted path ++ " is not a relative path of named segments"))

def moduleName (path : BundlePath) : Option Name := ModuleName.fromPath path.path

end BundlePath

structure BundleBuilder where
  modules : Std.ExtTreeMap Name String
  data : Std.ExtTreeMap Name (List UInt8)
  error : Option Error

namespace BundleBuilder

variable (toolchain : Toolchain)

def new : BundleBuilder := ⟨∅, ∅, none⟩

/-- What an operation writes before it fails stays written. -/
def attempt (builder : BundleBuilder) (operation : Fallible BundleBuilder Error Unit) :
    BundleBuilder :=
  match builder.error with
  | some _ => builder
  | none =>
      match exec operation builder with
      | (.ok (), builder) => { builder with error := none }
      | (.error error, builder) => { builder with error := some error }

/-- The source is transpiled before anything is written. -/
def insertModule (path : BundlePath) (source : String) : Fallible BundleBuilder Error Unit :=
  match path.moduleName with
  | none =>
      throw (.bundle (toolchain.quoted path.path ++ " is not a JavaScript or TypeScript module"))
  | some name => do
      let builder ← get
      match builder.modules.contains name with
      | true =>
          throw (.bundle (toolchain.quoted path.path ++ " names the module " ++
            toolchain.quoted name ++ " a second time"))
      | false => do
          let text ← check fun _ => toolchain.transpile path.path source
          modify fun builder => { builder with modules := builder.modules.insert name text }

def insertData (path : BundlePath) (contents : List UInt8) : Fallible BundleBuilder Error Unit := do
  let builder ← get
  match builder.data.contains path.path with
  | true => throw (.bundle (toolchain.quoted path.path ++ " is added a second time"))
  | false => modify fun builder => { builder with data := builder.data.insert path.path contents }

def insertFile (path : BundlePath) (contents : List UInt8) : Fallible BundleBuilder Error Unit :=
  match path.moduleName with
  | some _ =>
      match fromUtf8 contents with
      | some source => insertModule toolchain path source
      | none =>
          throw (.bundle (toolchain.quoted path.path ++ " is not UTF-8: " ++
            toolchain.utf8Error contents))
  | none => insertData toolchain path contents

def module (builder : BundleBuilder) (path : Name) (source : String) : BundleBuilder :=
  builder.attempt do
    insertModule toolchain (← check fun _ => BundlePath.new toolchain path) source

def data' (builder : BundleBuilder) (path : Name) (contents : List UInt8) : BundleBuilder :=
  builder.attempt do
    insertData toolchain (← check fun _ => BundlePath.new toolchain path) contents

def file (builder : BundleBuilder) (path : Name) (contents : List UInt8) : BundleBuilder :=
  builder.attempt do
    insertFile toolchain (← check fun _ => BundlePath.new toolchain path) contents

/-- `directory` and `embedded`: the files of a tree, up to the first that fails. What stops the walk
itself is the error it ends with. -/
def files (builder : BundleBuilder) (found : List (Name × List UInt8)) (walk : Except Error Unit) :
    BundleBuilder :=
  builder.attempt do
    found.forM fun file => do
      insertFile toolchain (← check fun _ => BundlePath.new toolchain file.1) file.2
    check fun _ => walk

/-- One call of a method that adds something. -/
inductive Addition where
  | module (path : Name) (source : String)
  | data (path : Name) (contents : List UInt8)
  | file (path : Name) (contents : List UInt8)
  | files (found : List (Name × List UInt8)) (walk : Except Error Unit)

def add (builder : BundleBuilder) : Addition → BundleBuilder
  | .module path source => builder.module toolchain path source
  | .data path contents => builder.data' toolchain path contents
  | .file path contents => builder.file toolchain path contents
  | .files found walk => builder.files toolchain found walk

/-- The bundle takes the next identity. -/
def build (builder : BundleBuilder) (id : BundleId) : Except Error Bundle :=
  match builder.error, builder.modules.isEmpty with
  | some error, _ => .error error
  | none, true => .error (.bundle "a bundle needs at least one module")
  | none, false => .ok ⟨id, builder.modules, builder.data⟩

end BundleBuilder

namespace Bundle

def fromFiles (toolchain : Toolchain) (files : List (Name × List UInt8)) (id : BundleId) :
    Except Error Bundle :=
  (files.foldl (fun builder file => BundleBuilder.file toolchain builder file.1 file.2)
    BundleBuilder.new).build id

def single (toolchain : Toolchain) (path : Name) (source : String) (id : BundleId) :
    Except Error Bundle :=
  (BundleBuilder.module toolchain .new path source).build id

end Bundle

end GuestJs
