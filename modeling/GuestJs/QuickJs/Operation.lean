import GuestJs.QuickJs.Buffers
import GuestJs.QuickJs.Classes
import GuestJs.QuickJs.Modules
import GuestJs.QuickJs.Promises
import GuestJs.QuickJs.Values

/-!
# The operations of the backend

Everything a host can ask of a session through the traits of values, buffers, callables, classes,
exceptions, promises and modules.
-/

namespace GuestJs.QuickJs

inductive Operation where
  | newUndefined
  | newNull
  | newBoolean (value : Bool)
  | newNumber (value : Number)
  | newBigint (value : Int)
  | newString (value : String)
  | newSymbol (description : String)
  | newArray (items : List Value)
  | newObject
  | newSet (items : List Value)
  | wellKnown (symbol : WellKnown)
  | kind (value : Value)
  | truthy (value : Value)
  | asBool (value : Value)
  | asF64 (value : Value)
  | asI64 (value : Value)
  | borrowStr (value : Value)
  | display (value : Value)
  | same (first second : Value)
  | get (object key : Value)
  | set (object key value : Value)
  | define (object key : Value) (property : Property)
  | delete (object key : Value)
  | has (object key : Value)
  | keys (object : Value)
  | instanceOf (value constructor : Value)
  | prototypeOf (object : Value)
  | setPrototype (object prototype : Value)
  | call (function this : Value) (arguments : List Value)
  | construct (constructor : Value) (arguments : List Value)
  | iter (iterable : Value) (kind : IteratorKind)
  | next (iterator : Value)
  | step (result : Value)
  | close (iterator : Value)
  | newArrayBuffer (bytes : List UInt8)
  | newTypedArray (element : ElementType) (buffer : Value) (byteOffset length : Nat)
  | elementType (typedArray : Value)
  | buffer (view : Value)
  | byteOffset (view : Value)
  | byteLength (value : Value)
  | borrowBytes (source : Value)
  | borrowBytesMut (source : Value)
  | newFunction (name : String) (length : Nat)
  | newConstructor (name : String) (length : Nat)
  | newInstance (prototype : Value) (type : PayloadType)
  | payloadType (value : Value)
  | borrowPayload (value : Value) (type : PayloadType)
  | borrowPayloadMut (value : Value) (type : PayloadType)
  | throw (value : Value)
  | newException (error : Error)
  | newError (kind : GuestErrorKind) (message : String)
  | newPromise
  | resolve (value : Value)
  | state (promise : Value)
  | pollJobs
  | eval (source name : String)
  | declare (name source : String)
  | synthetic (borrowed : Bool) (name : String) (exports : List (String × Value))
  | evaluate (module : ModuleId)
  | import_ (name : String)
  | install

namespace Operation

variable {E : Engine}

def run (E : Engine) : Operation → Op E Unit
  | newUndefined => discard (pure Value.undefined : Op E Value)
  | newNull => discard (pure Value.null : Op E Value)
  | newBoolean value => discard (pure (.boolean value) : Op E Value)
  | newNumber value => discard (pure (.number value) : Op E Value)
  | newBigint value => discard (QuickJs.newBigint value : Op E Value)
  | newString value => discard (QuickJs.newString value : Op E Value)
  | newSymbol description => discard (QuickJs.newSymbol description : Op E Value)
  | newArray items => discard (QuickJs.newArray items : Op E Value)
  | newObject => discard (QuickJs.newObject : Op E Value)
  | newSet items => discard (QuickJs.newSet items : Op E Value)
  | wellKnown symbol => discard (QuickJs.wellKnown symbol : Op E Value)
  | kind value => discard (QuickJs.kind value : Op E Kind)
  | truthy value => discard (QuickJs.truthy value : Op E Bool)
  | asBool value => discard (QuickJs.asBool value : Op E Bool)
  | asF64 value => discard (QuickJs.asF64 value : Op E Number)
  | asI64 value => discard (QuickJs.asI64 value : Op E Int)
  | borrowStr value => discard (QuickJs.borrowStr value : Op E String)
  | display value => discard (QuickJs.display value : Op E String)
  | same first second => discard (pure (QuickJs.same first second) : Op E Bool)
  | get object key => discard (QuickJs.get object key : Op E Value)
  | set object key value => QuickJs.set object key value
  | define object key property => QuickJs.define object key property
  | delete object key => QuickJs.delete object key
  | has object key => discard (QuickJs.has object key : Op E Bool)
  | keys object => discard (QuickJs.keys object : Op E (List Value))
  | instanceOf value constructor => discard (QuickJs.instanceOf value constructor : Op E Bool)
  | prototypeOf object => discard (QuickJs.prototypeOf object : Op E Value)
  | setPrototype object prototype => QuickJs.setPrototype object prototype
  | call function this arguments => discard (QuickJs.call function this arguments : Op E Value)
  | construct constructor arguments => discard (QuickJs.construct constructor arguments : Op E Value)
  | iter iterable protocol => discard (QuickJs.iter iterable protocol : Op E (Option Value))
  | next iterator => discard (QuickJs.next iterator : Op E Value)
  | step result => discard (QuickJs.step result : Op E (Option Value))
  | close iterator => discard (QuickJs.close iterator : Op E Value)
  | newArrayBuffer bytes => discard (QuickJs.newArrayBuffer bytes : Op E Value)
  | newTypedArray element source offset length =>
      discard (QuickJs.newTypedArray element source offset length : Op E Value)
  | elementType typedArray => discard (QuickJs.elementType typedArray : Op E ElementType)
  | buffer view => discard (QuickJs.buffer view : Op E Value)
  | byteOffset view => discard (QuickJs.byteOffset view : Op E Nat)
  | byteLength value => discard (QuickJs.byteLength value : Op E Nat)
  | borrowBytes source => discard (QuickJs.borrowBytes source : Op E Bytes)
  | borrowBytesMut source => discard (QuickJs.borrowBytesMut source : Op E Bytes)
  | newFunction name length => discard (BackendCallables.newFunction name length : Op E Value)
  | newConstructor name length => discard (BackendClasses.newConstructor name length : Op E Value)
  | newInstance prototype type => discard (BackendClasses.newInstance prototype type : Op E Value)
  | payloadType value => discard (BackendClasses.payloadType value : Op E (Option Nat))
  | borrowPayload value type => BackendClasses.borrowPayload value type
  | borrowPayloadMut value type => BackendClasses.borrowPayloadMut value type
  | throw value => discard (BackendExceptions.throw value : Op E Error)
  | newException error => discard (BackendExceptions.newException error : Op E Value)
  | newError errorKind message => discard (BackendExceptions.newError errorKind message : Op E Value)
  | newPromise => discard (BackendPromises.newPromise : Op E (Value × Value × Value))
  | resolve value => discard (BackendPromises.resolve value : Op E Value)
  | state promise => discard (BackendPromises.state promise : Op E PromiseState)
  | pollJobs => discard (BackendPromises.pollJobs : Op E Bool)
  | eval source name => discard (BackendModules.eval source name : Op E Value)
  | declare name source => discard (BackendModules.declare name source : Op E ModuleId)
  | synthetic borrowed name exports =>
      discard (BackendModules.synthetic (.whole exports) borrowed name exports : Op E ModuleId)
  | evaluate module => discard (BackendModules.evaluate module : Op E (Value × Value))
  | import_ name => discard (BackendModules.import_ name : Op E (Value × Value))
  | install => BackendModules.install

/-- The operations that ask the table of loans before anything else. -/
def isGuarded : Operation → Bool
  | display _ | get _ _ | set _ _ _ | define _ _ _ | delete _ _ | has _ _ | keys _
  | instanceOf _ _ | prototypeOf _ | setPrototype _ _ | call _ _ _ | construct _ _ | iter _ _
  | next _ | step _ | close _ | resolve _ | eval _ _ | evaluate _ | import_ _ => true
  | _ => false

end Operation

end GuestJs.QuickJs
