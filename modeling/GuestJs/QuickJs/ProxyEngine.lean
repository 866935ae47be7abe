import GuestJs.QuickJs.BareEngine
import GuestJs.QuickJs.Session

/-!
# An engine with a proxy

The guest has run `const target = {}`, `const proxy = new Proxy(target, {})` and
`Object.setPrototypeOf(target, proxy)`, and throws the proxy. Having no traps it answers the prototype
of its target, which is itself, and reading a property through it uses up the stack. None of this
runs code of the guest.
-/

namespace GuestJs.QuickJs.ProxyEngine

def proxy : Value := .object 1

/-- What the engine throws where the stack is used up. -/
def rangeError : Value := .object 2

/-- An object without a prototype. -/
def plain : Value := .object 3

def primitive {α : Type} : Primitive α → Unit → Resumption Unit GuestCall Answer Fault α
  | .getPrototype object, heap => .done (.ok (if object = proxy then proxy else .null)) heap
  | .get object _, heap =>
      .done (if object = proxy then .error (.exception rangeError) else .ok .undefined) heap
  | .toText value, heap =>
      .done (if value = proxy then .error (.exception rangeError) else .ok "[object Object]") heap
  | _, heap => .done (.error (.other "not available")) heap

theorem primitive_read {α : Type} {p : Primitive α} (heap : Unit) (_ : p.isRead = true) :
    ∃ result, primitive p heap = .done result heap := by
  cases p
  all_goals exact ⟨_, rfl⟩

def engine : Engine := .bare Unit primitive primitive_read fun h => by cases h

def session : Session engine := .entered ()

end GuestJs.QuickJs.ProxyEngine
