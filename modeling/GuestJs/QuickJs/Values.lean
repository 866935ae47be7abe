import GuestJs.QuickJs.Session
import Mathlib.Algebra.Group.Int.Defs

/-!
# Values

The value operations of the backend. Those that read properties, call functions or convert to
strings are guarded by the table of loans; making a set goes through the global constructor without
asking it.
-/

namespace GuestJs.QuickJs

variable {E : Engine}

def newBigint (value : Int) : Op E Value := capture (request (.newBigint value))

def newString (text : String) : Op E Value := capture (request (.newString text))

def newSymbol (description : String) : Op E Value := capture (request (.newSymbol description))

def wellKnown (symbol : WellKnown) : Op E Value := pure (E.wellKnown symbol)

def newArray (items : List Value) : Op E Value := capture (request (.newArray items))

def newObject : Op E Value := capture (request .newObject)

/-- The one constructor that is looked up where the guest can replace it. -/
def newSet (items : List Value) : Op E Value := capture do
  let set ← asConstructor (← request (.get E.globals (.string "Set")))
  let array ← request (.newArray items)
  request (.construct set [array])

def truthy (value : Value) : Op E Bool := capture (request (.toBoolean value))

def asBool (value : Value) : Op E Bool := capture <|
  match value with
  | .boolean b => pure b
  | _ => mistyped value "bool"

def asF64 (value : Value) : Op E Number := capture <|
  match value with
  | .number n => pure n
  | _ => mistyped value "f64"

/-- `JS_IsSameValue`. -/
def same (first second : Value) : Bool := first = second

def asI64 (value : Value) : Op E Int :=
  match value with
  | .bigint n => do
      let integer ← capture (request (.toBigint64 (.bigint n)))
      match same value (← newBigint integer) with
      | true => pure integer
      | false => throw (.conversion "i64" "bigint out of range")
  | .number .negativeZero => pure 0
  | .number (.finite q) =>
      if q.den = 1 ∧ -2 ^ 63 ≤ q.num ∧ q.num < 2 ^ 63 then pure q.num
      else throw (.conversion "i64" (E.typeName value))
  | _ => throw (.conversion "i64" (E.typeName value))

def borrowStr (value : Value) : Op E String :=
  match kindOf E value with
  | .string => do
      match ← capture (request (.toCString value)) with
      | some text => pure text
      | none => throw (.conversion "UTF-8 string" "string with lone surrogates")
  | _ => capture (throwNew .typeError "not a string")

def display (value : Value) : Op E String := do
  settled
  capture (Thrown.text value)

def get (object key : Value) : Op E Value := do
  settled
  capture do request (.get (← asObject object) key)

def set (object key value : Value) : Op E Unit := do
  settled
  capture do request (.set (← asObject object) key value)

def define (object key : Value) (property : Property) : Op E Unit := do
  settled
  capture do request (.define (← asObject object) key property)

def delete (object key : Value) : Op E Unit := do
  settled
  capture do request (.delete (← asObject object) key)

def has (object key : Value) : Op E Bool := do
  settled
  capture do request (.has (← asObject object) key)

def keys (object : Value) : Op E (List Value) := do
  settled
  capture do request (.keys (← asObject object))

def instanceOf (value constructor : Value) : Op E Bool := do
  settled
  capture (request (.instanceOf value constructor))

def prototypeOf (object : Value) : Op E Value := do
  settled
  capture do
    match ← request (.getPrototype (← asObject object)) with
    | .object id => pure (.object id)
    | _ => pure .null

def setPrototype (object prototype : Value) : Op E Unit := do
  settled
  capture do
    request <| .setPrototype (← asObject object) <|
      match prototype with
      | .object id => some (.object id)
      | _ => none

def call (function this : Value) (arguments : List Value) : Op E Value := do
  settled
  capture do request (.call (← asFunction function) this arguments)

def construct (constructor : Value) (arguments : List Value) : Op E Value := do
  settled
  capture do request (.construct (← asConstructor constructor) arguments)

def iter (iterable : Value) (kind : IteratorKind) : Op E (Option Value) := do
  settled
  capture <|
    match iterable with
    | .object id => do
        let found ← request (.get (.object id) (E.wellKnown kind.symbol))
        match ← asOptionalFunction found with
        | some method => some <$> request (.call method (.object id) [])
        | none => pure none
    | _ => pure none

def next (iterator : Value) : Op E Value := do
  settled
  capture do
    let iterator ← asObject iterator
    let method ← asFunction (← request (.get iterator (.string "next")))
    request (.call method iterator [])

def step (result : Value) : Op E (Option Value) := do
  settled
  capture do
    let result ← asObject result
    let done ← request (.toBoolean (← request (.get result (.string "done"))))
    match done with
    | true => pure none
    | false => some <$> request (.get result (.string "value"))

def close (iterator : Value) : Op E Value := do
  settled
  capture do
    let iterator ← asObject iterator
    match ← asOptionalFunction (← request (.get iterator (.string "return"))) with
    | some method => request (.call method iterator [])
    | none => pure .undefined

end GuestJs.QuickJs
